import Mathlib.Data.List.Chain
import Deckwright.Proofs.Canonical
import Deckwright.Proofs.Lines
import Deckwright.Proofs.Markers

/-!
# The chunks of a system text

The system text of a deck in markdown layout is a list of chunks with blank lines between them: a
heading, a lead, or the items of leaves that follow each other. The tree of the deck is in it only
through the levels of the headings, so the chunks of a tree are its headings, leads and runs of
leaves from left to right (`Node.chunks`).

* `bullet_eq`: a list item is its leaf behind a bullet, for the further lines of the leaf are
  indented already.
* `systemText_eq`: the system text of a canonical deck is made of its chunks.
* `isChain_chunks`: no two lists follow each other.
-/

namespace Deckwright

open Markdown (Line isIndented)

/-! ## Leaves without samples -/

/-- The text of a leaf without samples is its value, whatever markers it has. -/
theorem leafText_nil (asked : List String) (value : String) : leafText asked value [] = value := by
  have hText : Segment.text asked [] = Segment.source := by
    funext segment
    cases segment <;> rfl
  rw [leafText, hText, flatMap_source_segments, String.ofList_toList]
  rfl

/-! ## Lines of canonical texts -/

theorem textLines_ne_nil (text : String) : textLines text ≠ [] :=
  Text.split_ne_nil _ _

theorem exists_textLines (text : String) : ∃ first more, textLines text = first :: more :=
  List.exists_cons_of_ne_nil (textLines_ne_nil text)

theorem intercalate_textLines (text : String) : ['\n'].intercalate (textLines text) = text.toList :=
  Text.intercalate_split _ _

/-- Text behind a line feed has lines of its own. -/
theorem textLines_append (text more : String) :
    textLines (text ++ "\n" ++ more) = textLines text ++ textLines more := by
  simp only [textLines, String.toList_append]
  rw [List.append_assoc]
  exact Text.split_append _ _ _

theorem toList_ne_nil {text : String} (h : text ≠ "") : text.toList ≠ [] := by
  intro hNil
  exact h (String.toList_inj.1 hNil)

theorem trim_toList {text : String} (h : trimmed text = text) :
    Text.trim text.toList = text.toList := by
  have hList := congrArg String.toList h
  rwa [trimmed, String.toList_ofList] at hList

theorem isBlank_toList {text : String} (hSome : text ≠ "") (hTrim : trimmed text = text) :
    Text.isBlank text.toList = false :=
  Text.isBlank_of_trimLeft (Text.trim_eq_self_iff.1 (trim_toList hTrim)).1 (toList_ne_nil hSome)

theorem getLast?_ne_return {line : Line} (h : Text.trimRight line = line) :
    line.getLast? ≠ some '\r' := by
  intro hLast
  have hSome : line ≠ [] := by
    rintro rfl
    cases hLast
  have hSpace := Text.dropEndWhile_eq_self_iff.1 h hSome
  rw [List.getLast?_eq_some_getLast hSome, Option.some.injEq] at hLast
  rw [hLast] at hSpace
  exact hSpace (by decide)

/-- Lines without white space at their ends, the last of which is not blank, are lines. -/
theorem areLines_of_trimmed {lines : List Line}
    (hTrimmed : ∀ line ∈ lines, Text.trimRight line = line)
    (hLast : ∀ line ∈ lines.getLast?, Text.isBlank line = false) : Text.AreLines lines where
  ends line hLine := getLast?_ne_return (hTrimmed line hLine)
  last hEmpty := Text.ne_nil_of_not_isBlank (hLast [] hEmpty) rfl

/-! ## List items -/

theorem continuation_eq_self {line : Line} (h : isIndented line) : continuation line = line := by
  unfold isIndented at h
  split at h
  · rfl
  · rfl
  · cases h

theorem bullet_eq {value : String} (h : LeafOk value) : bullet value = "- " ++ value := by
  have hLines : Text.lines value.toList = textLines value :=
    Text.lines_eq_split (areLines_of_trimmed (fun line hLine => (h.lines line hLine).1)
      fun line hLine => (h.lines line (List.mem_of_getLast? hLine)).2)
  have hValue := intercalate_textLines value
  have hIndented := h.indented
  obtain ⟨first, more, hSplit⟩ := exists_textLines value
  rw [hSplit] at hIndented hValue
  have hMore : more.map continuation = more := by
    have hSame : more.map continuation = more.map id :=
      List.map_congr_left fun line hLine => continuation_eq_self (hIndented line hLine)
    rw [hSame, List.map_id]
  have hMark : "- ".toList = ['-', ' '] := by decide
  unfold bullet
  simp only [hLines, hSplit]
  rw [List.headD_cons, List.drop_one, List.tail_cons, hMore, hMark, List.cons_append,
    List.cons_append, List.nil_append, List.intercalate_cons_cons_left,
    List.intercalate_cons_cons_left, hValue]
  apply String.toList_inj.1
  rw [String.toList_ofList, String.toList_append, hMark]
  rfl

/-! ## Chunks -/

/-- What stands between two blank lines of a system text in markdown layout. -/
inductive Chunk where
  | heading (level : UInt8) (name : String)
  | items (values : List String)
  | lead (text : String)

namespace Chunk

/-- The text of a chunk. -/
def text : Chunk → String
  | heading level name => headingText { name, level }
  | items values => String.intercalate "\n" (values.map bullet)
  | lead text => text

/-- Whether a chunk is a list. -/
def isItems : Chunk → Bool
  | items _ => true
  | _ => false

/-- Chunks of canonical decks. -/
def Ok : Chunk → Prop
  | heading level name => 0 < level ∧ level ≤ 6 ∧ NameOk name
  | items values => values ≠ [] ∧ ∀ value ∈ values, LeafOk value
  | lead text => LeadOk text

/-- The list of some leaves, if there are any. -/
def ofLeaves : List String → List Chunk
  | [] => []
  | values => [items values]

/-- A list needs something else behind it. -/
def Apart (chunk next : Chunk) : Prop :=
  chunk.isItems → next.isItems = false

end Chunk

/-- The chunks of nodes behind leaves with the given values. -/
def Node.chunks (values : List String) : List Node → List Chunk
  | [] => Chunk.ofLeaves values
  | .leaf value _ :: rest => Node.chunks (values ++ [value]) rest
  | .lead text :: rest => Chunk.ofLeaves values ++ .lead text :: Node.chunks [] rest
  | .group header children :: rest =>
    Chunk.ofLeaves values ++
      .heading header.level header.name :: (Node.chunks [] children ++ Node.chunks [] rest)

/-- Chunks with blank lines between them. -/
def Chunk.join (texts : List String) : String :=
  String.intercalate "\n\n" texts

/-- A text made of chunks is a run of chunks among others. -/
theorem Chunk.join_nested (before : List String) (first : String) (inner after : List String) :
    join (before ++ join (first :: inner) :: after) =
      join (before ++ first :: (inner ++ after)) := by
  have hInner : join (join (first :: inner) :: after) = join (first :: (inner ++ after)) := by
    cases after with
    | nil => simp [join]
    | cons next after =>
        rw [← List.cons_append, join, String.intercalate_cons_of_ne_nil (by simp), join, join,
          String.intercalate_append_of_ne_nil (by simp) (by simp)]
  cases before with
  | nil => exact hInner
  | cons one before =>
      simp only [join] at hInner ⊢
      rw [String.intercalate_append_of_ne_nil (by simp) (by simp), hInner,
        String.intercalate_append_of_ne_nil (by simp) (by simp)]

theorem bulletBlock_eq (values : List String) :
    bulletBlock (values.map bullet) = (Chunk.ofLeaves values).map Chunk.text := by
  cases values <;> rfl

/-- The blocks of canonical nodes, behind whatever stands before them, are their chunks. -/
theorem join_blocks (asked : List String) {parent : UInt8} {nodes : List Node}
    (h : Node.CanonicalAll parent nodes) (before values : List String) :
    Chunk.join (before ++ Node.blocks asked (values.map bullet) nodes) =
      Chunk.join (before ++ (Node.chunks values nodes).map Chunk.text) := by
  induction values, nodes using Node.chunks.induct generalizing parent before with
  | case1 values => rw [Node.blocks, Node.chunks, bulletBlock_eq]
  | case2 values value samples rest ih =>
      obtain ⟨⟨-, rfl⟩, -, hRest⟩ := h
      have hLater := ih hRest before
      rw [List.map_append] at hLater
      simp only [Node.blocks, Node.chunks, leafText_nil]
      exact hLater
  | case3 values text rest ih =>
      obtain ⟨-, -, hRest⟩ := h
      have hLater := ih hRest (before ++ (Chunk.ofLeaves values).map Chunk.text ++ [text])
      simp only [List.append_assoc, List.singleton_append, List.map_nil] at hLater
      simp only [Node.blocks, Node.chunks, Node.text, bulletBlock_eq, List.map_append,
        List.map_cons]
      exact hLater
  | case4 values header children rest ihChildren ihRest =>
      obtain ⟨⟨hLayout, -, -, -, -, hChildren⟩, -, hRest⟩ := h
      have hInner := ihChildren hChildren [headingText header]
      have hLater := ihRest hRest (before ++ (Chunk.ofLeaves values).map Chunk.text ++
        headingText header :: (Node.chunks [] children).map Chunk.text)
      simp only [List.append_assoc, List.cons_append, List.map_nil] at hInner hLater
      have hText : (Node.group header children).text asked =
          Chunk.join (headingText header :: (Node.chunks [] children).map Chunk.text) := by
        simp only [Node.text, hLayout]
        exact hInner
      simp only [Node.blocks, Node.chunks, bulletBlock_eq, List.map_append, List.map_cons]
      rw [hText, ← List.append_assoc, Chunk.join_nested, List.append_assoc]
      exact hLater

/-- The chunks of a deck: its title, and those of its tree. -/
def Deck.chunks (d : Deck) : List Chunk :=
  (d.title.map (Chunk.heading 1)).toList ++ Node.chunks [] d.children

theorem titleText_eq (title : String) : titleText title = (Chunk.heading 1 title).text := by
  apply String.toList_inj.1
  simp [titleText, Chunk.text, headingText]

/-- The system text of a canonical deck is made of its chunks. -/
theorem systemText_eq {d : Deck} (h : d.Canonical) (asked : List String) :
    d.systemText asked = Chunk.join (d.chunks.map Chunk.text) := by
  have hTitle : (d.title.map titleText).toList =
      (d.title.map (Chunk.heading 1)).toList.map Chunk.text := by
    cases d.title with
    | none => rfl
    | some title => simp [titleText_eq]
  have hBlocks := join_blocks asked h.children (d.title.map titleText).toList []
  rw [Deck.systemText, h.layout, Deck.chunks, List.map_append, ← hTitle]
  exact hBlocks

/-! ## What the chunks of a canonical tree are -/

theorem ok_ofLeaves {values : List String} (h : ∀ value ∈ values, LeafOk value) :
    ∀ chunk ∈ Chunk.ofLeaves values, chunk.Ok := by
  cases values with
  | nil => simp [Chunk.ofLeaves]
  | cons value rest =>
      intro chunk hChunk
      rw [Chunk.ofLeaves, List.mem_singleton] at hChunk
      · rw [hChunk]
        exact ⟨by simp, h⟩
      · simp

theorem ok_chunks {parent : UInt8} {nodes : List Node} (h : Node.CanonicalAll parent nodes)
    {values : List String} (hValues : ∀ value ∈ values, LeafOk value) :
    ∀ chunk ∈ Node.chunks values nodes, chunk.Ok := by
  have hLeaves := ok_ofLeaves hValues
  induction values, nodes using Node.chunks.induct generalizing parent with
  | case1 values =>
      rw [Node.chunks]
      exact hLeaves
  | case2 values value samples rest ih =>
      obtain ⟨⟨hValue, -⟩, -, hRest⟩ := h
      have hAll : ∀ other ∈ values ++ [value], LeafOk other := by
        intro other hMem
        rcases List.mem_append.1 hMem with hOld | hNew
        · exact hValues other hOld
        · rw [List.mem_singleton.1 hNew]
          exact hValue
      rw [Node.chunks]
      exact ih hRest hAll (ok_ofLeaves hAll)
  | case3 values text rest ih =>
      obtain ⟨hText, -, hRest⟩ := h
      intro chunk hMem
      rw [Node.chunks] at hMem
      rcases List.mem_append.1 hMem with hOld | hNew
      · exact hLeaves chunk hOld
      · rcases List.mem_cons.1 hNew with rfl | hLater
        · exact hText
        · exact ih hRest (by simp) (ok_ofLeaves (by simp)) chunk hLater
  | case4 values header children rest ihChildren ihRest =>
      obtain ⟨⟨-, -, hName, hParent, hLevel, hChildren⟩, -, hRest⟩ := h
      intro chunk hMem
      rw [Node.chunks] at hMem
      rcases List.mem_append.1 hMem with hOld | hNew
      · exact hLeaves chunk hOld
      · rcases List.mem_cons.1 hNew with rfl | hLater
        · refine ⟨?_, hLevel, hName⟩
          rw [UInt8.lt_iff_toNat_lt] at hParent ⊢
          exact Nat.lt_of_le_of_lt (Nat.zero_le _) hParent
        · rcases List.mem_append.1 hLater with hInner | hOuter
          · exact ihChildren hChildren (by simp) (ok_ofLeaves (by simp)) chunk hInner
          · exact ihRest hRest (by simp) (ok_ofLeaves (by simp)) chunk hOuter

/-- Behind a group there is no leaf. -/
theorem head?_chunks_of_precedes {header : Header} {children nodes : List Node}
    (h : ∀ next ∈ nodes, (Node.group header children).Precedes next) :
    ∀ chunk ∈ (Node.chunks [] nodes).head?, chunk.isItems = false := by
  intro chunk hHead
  cases nodes with
  | nil =>
      rw [Node.chunks, Chunk.ofLeaves] at hHead
      cases hHead
  | cons node rest =>
      have hNode := h node List.mem_cons_self
      cases node with
      | leaf value samples => exact absurd hNode id
      | lead text => exact absurd hNode id
      | group next inner =>
          simp only [Node.chunks, Chunk.ofLeaves, List.nil_append, List.head?_cons,
            Option.mem_some_iff] at hHead
          rw [← hHead]
          rfl

/-- Something else may stand behind any list. -/
theorem isChain_ofLeaves_append {values : List String} {chunk : Chunk} {more : List Chunk}
    (hChunk : chunk.isItems = false) (h : (chunk :: more).IsChain Chunk.Apart) :
    (Chunk.ofLeaves values ++ chunk :: more).IsChain Chunk.Apart := by
  cases values with
  | nil => exact h
  | cons value rest => exact List.isChain_cons_cons.2 ⟨fun _ => hChunk, h⟩

/-- Anything may stand behind what is no list. -/
theorem isChain_cons {chunk : Chunk} {more : List Chunk} (hChunk : chunk.isItems = false)
    (h : more.IsChain Chunk.Apart) : (chunk :: more).IsChain Chunk.Apart := by
  refine List.isChain_cons.2 ⟨?_, h⟩
  intro next _ hItems
  rw [hChunk] at hItems
  cases hItems

/-- No two lists follow each other. -/
theorem isChain_chunks {parent : UInt8} {nodes : List Node} (h : Node.CanonicalAll parent nodes)
    (values : List String) : (Node.chunks values nodes).IsChain Chunk.Apart := by
  induction values, nodes using Node.chunks.induct generalizing parent with
  | case1 values =>
      rw [Node.chunks]
      cases values <;> simp [Chunk.ofLeaves]
  | case2 values value samples rest ih =>
      rw [Node.chunks]
      exact ih h.2.2
  | case3 values text rest ih =>
      rw [Node.chunks]
      exact isChain_ofLeaves_append rfl (isChain_cons rfl (ih h.2.2))
  | case4 values header children rest ihChildren ihRest =>
      obtain ⟨⟨-, -, -, -, -, hChildren⟩, hPrecedes, hRest⟩ := h
      rw [Node.chunks]
      refine isChain_ofLeaves_append rfl (isChain_cons rfl (List.isChain_append.2 ?_))
      refine ⟨ihChildren hChildren, ihRest hRest, ?_⟩
      intro _ _ next hNext _
      exact head?_chunks_of_precedes hPrecedes next hNext

end Deckwright
