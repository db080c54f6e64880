import Deckwright.Proofs.ReadingBack
import Deckwright.Proofs.Rebuilding

/-!
# Canonical decks are read back

The system text of a canonical deck is a document, and reading that document gives the deck
(`read_systemText`). The text is made of chunks (`systemText_eq`), which are read as the pieces of
the tree from left to right (`Chunk.ofText_join`), and these put the tree back (`closeTo_addAll`).
-/

namespace Deckwright

open Document

/-! ## From chunks to parts -/

theorem map_pieces_ofLeaves (files : Files) (chain : List Path) (base : Path)
    (values : List String) :
    ((Chunk.ofLeaves values).flatMap Chunk.pieces).map (Part.ofPiece files chain base) =
      values.map Part.leaf := by
  cases values with
  | nil => rfl
  | cons value rest => simp [Chunk.ofLeaves, Chunk.pieces, Part.ofPiece]

/-- The chunks of nodes make their parts. -/
theorem map_pieces_chunks (files : Files) (chain : List Path) (base : Path)
    (values : List String) (nodes : List Node) :
    ((Node.chunks values nodes).flatMap Chunk.pieces).map (Part.ofPiece files chain base) =
      values.map Part.leaf ++ Node.partsAll nodes := by
  induction values, nodes using Node.chunks.induct with
  | case1 values =>
      rw [Node.chunks, map_pieces_ofLeaves, Node.partsAll, List.append_nil]
  | case2 values value samples rest ih =>
      rw [Node.chunks, ih, List.map_append, List.append_assoc]
      rfl
  | case3 values text rest ih =>
      rw [Node.chunks, List.flatMap_append, List.map_append, map_pieces_ofLeaves,
        List.flatMap_cons, List.map_append, ih]
      rfl
  | case4 values header children rest ihChildren ihRest =>
      rw [Node.chunks, List.flatMap_append, List.map_append, map_pieces_ofLeaves,
        List.flatMap_cons, List.map_append, List.flatMap_append, List.map_append, ihChildren,
        ihRest]
      rfl

/-- The chunks of a canonical deck can be read back. -/
theorem Deck.Canonical.ok_chunks {d : Deck} (h : d.Canonical) :
    (∀ chunk ∈ d.chunks, chunk.Ok) ∧ d.chunks.IsChain Chunk.Apart := by
  have hTree := @Deckwright.ok_chunks 0 d.children h.children [] (by simp)
  have hChain := isChain_chunks h.children []
  rcases h.title with hTitle | ⟨hTitle, -⟩
  · rw [Deck.chunks, hTitle]
    constructor
    · intro chunk hMem
      rcases List.mem_cons.1 hMem with rfl | hNode
      · exact ⟨by decide, by decide, h.name⟩
      · exact hTree chunk hNode
    · exact isChain_cons rfl hChain
  · rw [Deck.chunks, hTitle]
    exact ⟨hTree, hChain⟩

/-- The parts of the system text of a canonical deck are those of its title and of its tree. -/
theorem expand_systemText {d : Deck} (h : d.Canonical) (files : Files) (chain : List Path)
    (base : Path) (asked : List String) :
    expand files chain base (d.systemText asked) =
      (d.title.map (Part.heading 1)).toList ++ Node.partsAll d.children := by
  have hTitle : (((d.title.map (Chunk.heading 1)).toList.flatMap Chunk.pieces).map
      (Part.ofPiece files chain base)) = (d.title.map (Part.heading 1)).toList := by
    cases d.title <;> rfl
  rw [expand_eq_map, systemText_eq h, Chunk.ofText_join h.ok_chunks.1 h.ok_chunks.2, Deck.chunks,
    List.flatMap_append, List.map_append, hTitle, map_pieces_chunks]
  rfl

/-! ## From parts to the deck -/

/-- Without groups of level 1, a canonical tree may as well stand in a group of that level. -/
theorem canonicalAll_one {nodes : List Node} (h : Node.CanonicalAll 0 nodes)
    (hLevels : ∀ header children, .group header children ∈ nodes → header.level ≠ 1) :
    Node.CanonicalAll 1 nodes := by
  induction nodes with
  | nil => trivial
  | cons node rest ih =>
      obtain ⟨hNode, hPrecedes, hRest⟩ := h
      refine ⟨?_, hPrecedes, ih hRest fun header children hMem =>
        hLevels header children (List.mem_cons_of_mem _ hMem)⟩
      cases node with
      | leaf value samples => exact hNode
      | lead text => exact hNode
      | group header children =>
          obtain ⟨hLayout, hContext, hName, hParent, hSix, hChildren⟩ := hNode
          refine ⟨hLayout, hContext, hName, ?_, hSix, hChildren⟩
          have hNotOne := hLevels header children List.mem_cons_self
          have hPositive : (0 : UInt8).toNat < header.level.toNat := UInt8.lt_iff_toNat_lt.1 hParent
          have hNat : header.level.toNat ≠ (1 : UInt8).toNat := fun hEq =>
            hNotOne (UInt8.toNat_inj.1 hEq)
          have hOneNat : (1 : UInt8).toNat = 1 := rfl
          rw [UInt8.lt_iff_toNat_lt]
          omega

mutual

/-- Where no samples are declared, none are attached. -/
theorem attach_of_canonical {parent : UInt8} {node : Node} (h : node.Canonical parent) :
    node.attach [] = node := by
  cases node with
  | leaf value samples =>
      obtain ⟨-, rfl⟩ := h
      have hNone :
          (footnoteRefs value).filterMap (fun id => Ordered.get? id ([] : Ordered Sample)) = [] := by
        rw [List.filterMap_eq_nil_iff]
        exact fun _ _ => rfl
      rw [Node.attach, hNone, List.append_nil]
  | lead text => rfl
  | group header children =>
      rw [Node.attach, attachAll_of_canonical h.2.2.2.2.2]

theorem attachAll_of_canonical {parent : UInt8} {nodes : List Node}
    (h : Node.CanonicalAll parent nodes) : Node.attachAll [] nodes = nodes := by
  cases nodes with
  | nil => rfl
  | cons node rest =>
      obtain ⟨hNode, -, hRest⟩ := h
      rw [Node.attachAll, attach_of_canonical hNode, attachAll_of_canonical hRest]

end

/-- A draft that grew from nothing but perhaps a title closes with the nodes of its parts. -/
theorem closeTo_zero {parent floor : UInt8} {nodes : List Node}
    (h : Node.CanonicalAll parent nodes) (hFloor : floor.toNat = parent.toNat + 1) {draft : Draft}
    (hReady : draft.Ready floor) (hOpened : draft.opened = []) :
    ∃ next, draft.addAll (Node.partsAll nodes) = .ok next ∧
      next.closeTo 0 = { draft with root := draft.root ++ nodes } := by
  obtain ⟨next, hNext, hClosed⟩ := closeTo_addAll h hFloor hReady
  refine ⟨next, hNext, ?_⟩
  have hZero : (0 : UInt8) ≤ floor := by
    rw [UInt8.le_iff_toNat_le]
    exact Nat.zero_le _
  rw [← Draft.closeTo_closeTo hZero, hClosed, Draft.pushAll_of_nil hOpened]
  apply Draft.closeTo_eq_self
  intro frame hMem
  rw [Draft.frames, hOpened] at hMem
  cases hMem

/-- A draft that closes to nodes at the top makes a deck of them. -/
theorem finish_of_closeTo {draft : Draft} {name : String} {title : Option String}
    {nodes : List Node} {named : Option String} (hNotBlank : blank name = false)
    (hNamed : named.getD Deck.defaultName = name)
    (h : draft.closeTo 0 = { name := named, title, root := nodes }) :
    draft.finish =
      { deck := { name, title, layout := .markdown, children := nodes }, samples := [] } := by
  simp only [Draft.finish, h, hNamed, Deck.empty, hNotBlank]
  rfl

/-- The parts of a canonical deck make that deck. -/
theorem ofParts_of_canonical {d : Deck} (h : d.Canonical) :
    ofParts ((d.title.map (Part.heading 1)).toList ++ Node.partsAll d.children) =
      .ok { deck := d, samples := [] } := by
  have hNotBlank : blank d.name = false := isBlank_toList h.name.notEmpty h.name.trimmed
  obtain ⟨name, title, layout, children, context, tools⟩ := d
  obtain ⟨hLayout, hContext, hTools, -, hTitle, hChildren⟩ := h
  simp only at hLayout hContext hTools hTitle hChildren hNotBlank
  subst hLayout hContext hTools
  rcases hTitle with rfl | ⟨rfl, rfl, hLevels⟩
  · have hReady : Draft.Ready 1 { name := some name, title := some name } :=
      ⟨by simp [Draft.frames, OpenGroup.frames], .inl rfl⟩
    obtain ⟨next, hNext, hClosed⟩ := closeTo_zero hChildren rfl hReady rfl
    have hAll : Draft.addAll {} (.heading 1 name :: Node.partsAll children) = .ok next := hNext
    have hFinish := finish_of_closeTo hNotBlank rfl hClosed
    show (Draft.addAll {} (.heading 1 name :: Node.partsAll children)).map Draft.finish = _
    rw [hAll, Except.map, hFinish]
    rfl
  · have hReady : Draft.Ready 2 {} := ⟨by simp, .inr (by decide)⟩
    obtain ⟨next, hNext, hClosed⟩ :=
      closeTo_zero (canonicalAll_one hChildren hLevels) rfl hReady rfl
    have hFinish := finish_of_closeTo hNotBlank rfl hClosed
    show (Draft.addAll {} (Node.partsAll children)).map Draft.finish = _
    rw [hNext, Except.map, hFinish]
    rfl

namespace Document

/-- Reading the system text of a canonical deck gives the deck, in any directory and among any
files: nothing in it is an embed. -/
theorem read_systemText {d : Deck} (h : d.Canonical) (files : Files) (base : Path)
    (asked : List String) :
    read files base (d.systemText asked) = .ok { deck := d, samples := [] } := by
  have hAttach : Node.attachAll [] d.children = d.children := attachAll_of_canonical h.children
  rw [read, expand_systemText h, ofParts_of_canonical h, Except.map]
  have hSamples : namedSamples { deck := d, samples := [] } = [] := rfl
  simp only [attached, hSamples, hAttach]

/-- A deck with a leaf of two lines, fenced code, a level that is skipped and one that returns. -/
def guide : Deck where
  name := "G"
  title := some "G"
  layout := .markdown
  children :=
    [.lead "Be\nkind.", .leaf "Say\n  - hi" [], .leaf "Go [^a]" [],
      .group { name := "C", layout := .markdown, level := 3 }
        [.lead "```\n\n# x\n```", .leaf "Run" [],
          .group { name := "D", layout := .markdown, level := 6 } []],
      .group { name := "E", layout := .markdown, level := 2 } [.leaf "Bye" []]]

theorem canonical_guide : guide.Canonical where
  layout := rfl
  context := rfl
  tools := rfl
  name := by decide +kernel
  title := .inl rfl
  children := by
    have hCode : ClosedFence "```\n\n# x\n```" .ticks "```".toList "```".toList
        ["".toList, "# x".toList] := by decide +kernel
    have hInner : Node.CanonicalAll 3
        [.lead "```\n\n# x\n```", .leaf "Run" [],
          .group { name := "D", layout := .markdown, level := 6 } []] :=
      ⟨.inl ⟨_, _, _, _, hCode⟩, by simp [Node.Precedes], ⟨by decide +kernel, rfl⟩,
        by simp [Node.Precedes], ⟨rfl, rfl, by decide +kernel, by decide, by decide, trivial⟩,
        by simp, trivial⟩
    have hLast : Node.CanonicalAll 2 [.leaf "Bye" []] :=
      ⟨⟨by decide +kernel, rfl⟩, by simp, trivial⟩
    refine ⟨.inr (by decide +kernel), ?_, ⟨by decide +kernel, rfl⟩, ?_, ⟨by decide +kernel, rfl⟩,
      ?_, ⟨rfl, rfl, by decide +kernel, by decide, by decide, hInner⟩, ?_,
      ⟨rfl, rfl, by decide +kernel, by decide, by decide, hLast⟩, ?_, trivial⟩
    all_goals simp [Node.Precedes]

/-- The text of the deck, and the deck read from it. -/
theorem read_systemText_guide : guide.Canonical ∧
    guide.systemText [] =
      "# G\n\nBe\nkind.\n\n- Say\n  - hi\n- Go [^a]\n\n### C\n\n```\n\n# x\n```\n\n- Run\n\n" ++
        "###### D\n\n## E\n\n- Bye" ∧
    read [] {} (guide.systemText []) = .ok { deck := guide, samples := [] } :=
  ⟨canonical_guide, by decide +kernel, read_systemText canonical_guide [] {} []⟩

end Document

end Deckwright
