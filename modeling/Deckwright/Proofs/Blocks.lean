import Deckwright.Proofs.Appended

/-!
# Blocks and lines

Nodes have a text in blocks, between blank lines and with lists of leaves (`Node.blockText`), and
one with a node per line (`Node.lineText`). When does the second one start with the first?

Only if the two are the same. A leaf in front has a mark in blocks and none in lines
(`not_mark_isPrefix`). Behind any other node in front, blocks have the longer break, and from there
on they are ahead in line feeds for good: the same nodes have no fewer line feeds in blocks than in
lines, but for a leaf that ends in a line feed, and there the item has ended on a line on which the
leaf has nothing (`not_isPrefix_lineText`).

Main result: `systemText_isPrefix_body_iff`, which decks have a text that their nodes, one per line,
start with.
-/

namespace Deckwright

/-! ## Lines -/

namespace Text

variable {cs : List Char}

theorem not_mem_lines : ∀ line ∈ lines cs, '\n' ∉ line := by
  induction cs using lines.induct with
  | case1 => simp [lines]
  | case2 rest ih => simpa [lines] using ih
  | case3 rest ih => simpa [lines] using ih
  | case4 c rest hReturn hFeed hNone ih =>
      rw [lines, hNone]
      · simpa using Ne.symm hFeed
      · exact hReturn
      · exact hFeed
  | case5 c rest hReturn hFeed line others hLines ih =>
      rw [hLines] at ih
      rw [lines, hLines]
      · simpa [Ne.symm hFeed] using ih
      · exact hReturn
      · exact hFeed

theorem lines_eq_nil_iff : lines cs = [] ↔ cs = [] := by
  constructor
  · intro h
    unfold lines at h
    split at h
    · rfl
    · cases h
    · cases h
    · split at h <;> cases h
  · rintro rfl
    rfl

/-- A text has a line for each of its line feeds, and one more if there is something behind the
last of them. -/
theorem length_lines (cs : List Char) :
    (lines cs).length = cs.count '\n' + if cs.getLast?.any (· ≠ '\n') then 1 else 0 := by
  induction cs using lines.induct with
  | case1 => rfl
  | case2 rest ih =>
      rw [lines, List.length_cons, ih, List.getLast?_cons_cons]
      cases rest with
      | nil => rfl
      | cons c rest => simp [Nat.add_right_comm]
  | case3 rest ih =>
      rw [lines, List.length_cons, ih]
      cases rest with
      | nil => rfl
      | cons c rest => simp [Nat.add_right_comm]
  | case4 c rest hReturn hFeed hNone ih =>
      have hRest : rest = [] := lines_eq_nil_iff.1 hNone
      rw [lines, hNone]
      · have hChar : c ≠ '\n' := hFeed
        simp [hRest, hChar]
      · exact hReturn
      · exact hFeed
  | case5 c rest hReturn hFeed line others hLines ih =>
      have hChar : c ≠ '\n' := hFeed
      have hRest : rest ≠ [] := by
        rintro rfl
        cases hLines
      rw [hLines] at ih
      rw [lines, hLines]
      · rw [List.getLast?_cons_of_ne_nil hRest, List.count_cons_of_ne hChar, ← ih]
        rfl
      · exact hReturn
      · exact hFeed

/-- The first line of a text is the whole of it, or an end of line comes behind it. -/
theorem exists_firstLine (cs : List Char) :
    ∃ more, cs = firstLine cs ++ more ∧ (more = [] ∨ '\n' ∈ more.take 2) := by
  induction cs using lines.induct with
  | case1 => exact ⟨[], rfl, .inl rfl⟩
  | case2 rest ih => exact ⟨'\r' :: '\n' :: rest, rfl, .inr (by simp)⟩
  | case3 rest ih => exact ⟨'\n' :: rest, rfl, .inr (by simp)⟩
  | case4 c rest hReturn hFeed hNone ih =>
      refine ⟨[], ?_, .inl rfl⟩
      rw [firstLine, lines, hNone, lines_eq_nil_iff.1 hNone]
      · rfl
      · exact hReturn
      · exact hFeed
  | case5 c rest hReturn hFeed line others hLines ih =>
      obtain ⟨more, hRest, hMore⟩ := ih
      refine ⟨more, ?_, hMore⟩
      rw [firstLine, hLines, List.headD_cons] at hRest
      rw [firstLine, lines, hLines]
      · rw [List.headD_cons, List.cons_append, ← hRest]
      · exact hReturn
      · exact hFeed

theorem not_mem_firstLine (cs : List Char) : '\n' ∉ firstLine cs := by
  rw [firstLine]
  cases hLines : lines cs with
  | nil => simp
  | cons line others => exact not_mem_lines line (hLines ▸ List.mem_cons_self)

/-! ## Lines that are joined -/

/-- Parts without line feeds have one line feed less between them than there are parts. -/
theorem count_intercalate {parts : List (List Char)} (hSome : parts ≠ [])
    (h : ∀ part ∈ parts, '\n' ∉ part) :
    (['\n'].intercalate parts).count '\n' + 1 = parts.length := by
  induction parts with
  | nil => exact absurd rfl hSome
  | cons part rest ih =>
      obtain ⟨hPart, hRest⟩ := List.forall_mem_cons.1 h
      cases rest with
      | nil => rw [List.intercalate_singleton, List.count_eq_zero.2 hPart, List.length_singleton]
      | cons next others =>
          have hOthers := ih (by simp) hRest
          rw [List.intercalate_cons_of_ne_nil (by simp), List.count_append, List.count_append,
            List.count_eq_zero.2 hPart, List.count_singleton_self, List.length_cons, ← hOthers]
          omega

/-- What is made of parts that are not empty and without line feeds does not end in one. -/
theorem getLast?_intercalate {parts : List (List Char)} (hSome : parts ≠ [])
    (h : ∀ part ∈ parts, part ≠ [] ∧ '\n' ∉ part) :
    ∃ c ≠ '\n', (['\n'].intercalate parts).getLast? = some c := by
  induction parts with
  | nil => exact absurd rfl hSome
  | cons part rest ih =>
      obtain ⟨⟨hPart, hFeed⟩, hRest⟩ := List.forall_mem_cons.1 h
      cases rest with
      | nil =>
          rw [List.intercalate_singleton, List.getLast?_eq_some_getLast hPart]
          exact ⟨_, fun hLast => hFeed (hLast ▸ List.getLast_mem hPart), rfl⟩
      | cons next others =>
          obtain ⟨c, hChar, hLast⟩ := ih (by simp) hRest
          refine ⟨c, hChar, ?_⟩
          rw [List.intercalate_cons_of_ne_nil (by simp), List.getLast?_append, hLast]
          rfl

/-- A text that goes on behind its last line feed and one that ends in it, with as many line feeds
before, are of different lengths. -/
theorem not_isPrefix_of_ends {text other more : List Char}
    (hText : ∃ c ≠ '\n', text.getLast? = some c) (hOther : other.getLast? = some '\n')
    (hCount : text.count '\n' = other.count '\n')
    (hMore : more = [] ∨ more.head? = some '\n') : ¬ text <+: other ++ more := by
  intro h
  obtain ⟨c, hChar, hLast⟩ := hText
  rcases List.prefix_or_prefix_of_prefix h (List.prefix_append other more) with hIn | hIn
  · obtain ⟨rest, rfl⟩ := hIn
    rw [List.count_append] at hCount
    have hNone : '\n' ∉ rest := List.count_eq_zero.1 (by omega)
    cases hRest : rest.getLast? with
    | none =>
        rw [List.getLast?_eq_none_iff.1 hRest, List.append_nil, hLast] at hOther
        exact hChar (Option.some.inj hOther)
    | some d =>
        rw [List.getLast?_append, hRest, Option.some_or] at hOther
        exact hNone (List.mem_of_getLast? (hRest.trans hOther))
  · obtain ⟨rest, rfl⟩ := hIn
    rw [List.count_append] at hCount
    have hNone : '\n' ∉ rest := List.count_eq_zero.1 (by omega)
    rw [List.prefix_append_right_inj] at h
    cases rest with
    | nil =>
        rw [List.append_nil, hOther] at hLast
        exact hChar (Option.some.inj hLast).symm
    | cons d rest =>
        obtain ⟨others, rfl⟩ := h
        rcases hMore with hMore | hMore
        · cases hMore
        · have hFirst : d = '\n' := Option.some.inj hMore
          exact hNone (hFirst ▸ List.mem_cons_self)

end Text

/-! ## List items -/

section Items

variable {text : String}

theorem continuation_ne_nil (line : List Char) : continuation line ≠ [] := by
  unfold continuation
  split <;> simp

theorem not_mem_continuation {line : List Char} (h : '\n' ∉ line) : '\n' ∉ continuation line := by
  unfold continuation
  split <;> simp_all

/-- The lines of a list item. -/
def itemLines (text : String) : List (List Char) :=
  ('-' :: ' ' :: Text.firstLine text.toList) ::
    (Text.lines text.toList).tail.map continuation

theorem toList_bullet (text : String) :
    (bullet text).toList = ['\n'].intercalate (itemLines text) := by
  have hMark : "- ".toList = ['-', ' '] := by decide
  simp only [bullet, String.toList_ofList, hMark, itemLines, Text.firstLine, List.drop_one]
  rfl

theorem itemLines_ok : ∀ line ∈ itemLines text, line ≠ [] ∧ '\n' ∉ line := by
  refine List.forall_mem_cons.2 ⟨⟨by simp, ?_⟩, ?_⟩
  · simpa using Text.not_mem_firstLine text.toList
  · rw [List.forall_mem_map]
    intro line hLine
    exact ⟨continuation_ne_nil line,
      not_mem_continuation (Text.not_mem_lines line (List.mem_of_mem_tail hLine))⟩

/-- A list item does not end in a line feed. -/
theorem getLast?_bullet (text : String) : ∃ c ≠ '\n', (bullet text).toList.getLast? = some c := by
  rw [toList_bullet]
  exact Text.getLast?_intercalate (by simp [itemLines]) itemLines_ok

/-- A list item has all line feeds of its text but the one that the text may end in. -/
theorem count_bullet (text : String) :
    text.toList.count '\n' ≤ (bullet text).toList.count '\n' ∨
      text.toList.count '\n' = (bullet text).toList.count '\n' + 1 ∧
        text.toList.getLast? = some '\n' := by
  have hItem := @Text.count_intercalate (itemLines text) (by simp [itemLines])
    fun line hLine => (itemLines_ok line hLine).2
  have hText := Text.length_lines text.toList
  rw [← toList_bullet, itemLines, List.length_cons, List.length_map, List.length_tail] at hItem
  split at hText
  · left
    omega
  · rename_i hEnd
    cases hLast : text.toList.getLast? with
    | none =>
        left
        rw [List.getLast?_eq_none_iff.1 hLast]
        exact Nat.zero_le _
    | some c =>
        have hChar : c = '\n' := by simpa [hLast] using hEnd
        have hLe : text.toList.count '\n' ≤ (bullet text).toList.count '\n' + 1 := by omega
        exact (Nat.le_or_eq_of_le_succ hLe).imp_right fun hEq => ⟨hEq, hChar ▸ rfl⟩

theorem mark_isPrefix_bullet (text : String) :
    '-' :: ' ' :: Text.firstLine text.toList <+: (bullet text).toList := by
  rw [toList_bullet, itemLines]
  cases (Text.lines text.toList).tail.map continuation with
  | nil => simp only [List.intercalate_singleton, List.prefix_refl]
  | cons next others =>
      rw [List.intercalate_cons_of_ne_nil (by simp), List.append_assoc]
      exact List.prefix_append _ _

/-- In front of a text with a mark stands what no text has in front of its own first line. -/
theorem not_mark_isPrefix {more : List Char} (hMore : more = [] ∨ more.head? = some '\n') :
    ¬ ('-' :: ' ' :: Text.firstLine text.toList <+: text.toList ++ more) := by
  intro h
  have hFeed := Text.not_mem_firstLine text.toList
  obtain ⟨others, hText, hOthers⟩ := Text.exists_firstLine text.toList
  generalize Text.firstLine text.toList = line at h hFeed hText
  rw [hText, List.append_assoc, List.prefix_iff_eq_take] at h
  have hTake : (line ++ (others ++ more)).take ('-' :: ' ' :: line).length =
      line ++ (others ++ more).take 2 := List.take_length_add_append 2
  rw [hTake] at h
  have hBehind : others ++ more = [] ∨ '\n' ∈ (others ++ more).take 2 := by
    rcases hOthers with rfl | hMem
    · rcases hMore with rfl | hHead
      · exact .inl rfl
      · obtain ⟨rest, rfl⟩ := List.head?_eq_some_iff.1 hHead
        exact .inr (by simp)
    · rw [List.take_append]
      exact .inr (List.mem_append_left _ hMem)
  rcases hBehind with hNone | hMem
  · rw [hNone] at h
    have hLength := congrArg List.length h
    simp only [List.length_cons, List.length_append, List.take_nil, List.length_nil] at hLength
    omega
  · -- the first line with the mark reaches over its end, where there is a line feed
    have hIn : '\n' ∈ '-' :: ' ' :: line := h ▸ List.mem_append_right line hMem
    simp [hFeed] at hIn

end Items

/-! ## Nodes -/

namespace Node

variable {asked : List String}

/-- What stands between a node and the nodes behind it, one per line. -/
def lineGap (rest : List Node) : String :=
  if rest = [] then "" else "\n"

/-- What stands between a leaf and the nodes behind it, where nodes are written in blocks. -/
def gap : List Node → String
  | [] => ""
  | .leaf .. :: _ => "\n"
  | _ => "\n\n"

/-- Nodes as blocks. -/
def blockText (asked : List String) (nodes : List Node) : String :=
  "\n\n".intercalate (blocks asked [] nodes)

theorem blockText_nil : blockText asked [] = "" := by
  rw [blockText, blocks, bulletBlock]
  rfl

theorem lineText_nil : lineText asked [] = "" := rfl

theorem gap_of_isLeaf {node : Node} (h : node.isLeaf = false) (rest : List Node) :
    gap (node :: rest) = "\n\n" := by
  cases node with
  | leaf value samples => cases h
  | lead text => rfl
  | group header children => rfl

/-- Items that are not closed yet come before the text of the nodes behind them. -/
theorem intercalate_blocks {bullets : List String} (h : bullets ≠ []) (nodes : List Node) :
    "\n\n".intercalate (blocks asked bullets nodes) =
      "\n".intercalate bullets ++ gap nodes ++ blockText asked nodes := by
  have hBlock : ∀ {items : List String}, items ≠ [] →
      bulletBlock items = ["\n".intercalate items] := by
    intro items hItems
    cases items with
    | nil => exact absurd rfl hItems
    | cons item others => rfl
  induction nodes generalizing bullets with
  | nil =>
      rw [blocks, hBlock h, String.intercalate_singleton, gap, blockText_nil, String.append_empty,
        String.append_empty]
  | cons node rest ih =>
      cases hNode : node.isLeaf with
      | true =>
          obtain ⟨value, samples, rfl⟩ := exists_of_isLeaf hNode
          have hItem : blockText asked (.leaf value samples :: rest) =
              bullet (leafText asked value samples) ++ gap rest ++ blockText asked rest := by
            rw [blockText, blocks, List.nil_append, ih (by simp), String.intercalate_singleton]
          rw [blocks, ih (by simp), hItem, intercalate_append_singleton, if_neg h, gap]
          simp only [String.append_assoc]
      | false =>
          rw [blockText, blocks_cons hNode, blocks_cons hNode, gap_of_isLeaf hNode, hBlock h,
            bulletBlock, List.nil_append, String.intercalate_append_of_ne_nil (by simp) (by simp),
            String.intercalate_singleton]

theorem blockText_leaf (value : String) (samples : List Sample) (rest : List Node) :
    blockText asked (.leaf value samples :: rest) =
      bullet (leafText asked value samples) ++ gap rest ++ blockText asked rest := by
  rw [blockText, blocks, List.nil_append, intercalate_blocks (by simp),
    String.intercalate_singleton]

theorem blockText_cons {node : Node} (h : node.isLeaf = false) (rest : List Node) :
    blockText asked (node :: rest) =
      node.text asked ++ (if rest = [] then "" else "\n\n") ++ blockText asked rest := by
  rw [blockText, blocks_cons h, bulletBlock, List.nil_append, intercalate_cons, blockText]
  simp only [blocks_eq_nil_iff, true_and]

theorem lineText_cons (node : Node) (rest : List Node) :
    lineText asked (node :: rest) = node.text asked ++ lineGap rest ++ lineText asked rest := by
  rw [lineText, texts, intercalate_cons, lineText, lineGap]
  simp only [texts_eq_nil_iff]

/-- Behind a node in lines there is a line feed, or nothing. -/
theorem behind_lineText (rest : List Node) :
    (lineGap rest).toList ++ (lineText asked rest).toList = [] ∨
      ((lineGap rest).toList ++ (lineText asked rest).toList).head? = some '\n' := by
  rw [lineGap]
  by_cases hRest : rest = []
  · left
    rw [if_pos hRest, hRest, lineText_nil]
    rfl
  · right
    rw [if_neg hRest]
    rfl

/-- Blocks have no less between nodes than lines have. -/
theorem count_gap (rest : List Node) :
    (lineGap rest).toList.count '\n' ≤ (gap rest).toList.count '\n' ∧
      (gap rest).toList.count '\n' ≤ (if rest = [] then "" else "\n\n").toList.count '\n' := by
  cases rest with
  | nil => decide
  | cons node others =>
      rw [lineGap, if_neg (by simp), if_neg (by simp)]
      cases hNode : node.isLeaf with
      | true =>
          obtain ⟨value, samples, rfl⟩ := exists_of_isLeaf hNode
          rw [gap]
          decide
      | false =>
          rw [gap_of_isLeaf hNode]
          decide

/-- Nodes in blocks that are ahead in line feeds stay ahead. -/
theorem not_isPrefix_lineText {before ahead : List Char}
    (h : before.count '\n' < ahead.count '\n') (nodes : List Node) :
    ¬ (ahead ++ (blockText asked nodes).toList <+: before ++ (lineText asked nodes).toList) := by
  intro hStarts
  induction nodes generalizing before ahead with
  | nil =>
      have hCount := hStarts.sublist.count_le '\n'
      rw [blockText_nil, lineText_nil, List.count_append, List.count_append] at hCount
      omega
  | cons node rest ih =>
      obtain ⟨hLine, hBlock⟩ := count_gap rest
      rw [lineText_cons] at hStarts
      cases hNode : node.isLeaf with
      | false =>
          rw [blockText_cons hNode] at hStarts
          simp only [String.toList_append, ← List.append_assoc] at hStarts
          refine ih ?_ hStarts
          simp only [List.count_append]
          omega
      | true =>
          obtain ⟨value, samples, rfl⟩ := exists_of_isLeaf hNode
          rw [blockText_leaf, Node.text] at hStarts
          generalize leafText asked value samples = text at hStarts
          simp only [String.toList_append, ← List.append_assoc] at hStarts
          by_cases hAhead : (before ++ text.toList).count '\n' <
              (ahead ++ (bullet text).toList).count '\n'
          · refine ih ?_ hStarts
            simp only [List.count_append] at hAhead ⊢
            omega
          · -- the text ends in a line feed that its item does not have
            rw [List.count_append, List.count_append] at hAhead
            obtain ⟨hCount, hEnd⟩ := (count_bullet text).resolve_left (by omega)
            have hItem := (List.prefix_append _ _).trans ((List.prefix_append _ _).trans hStarts)
            rw [List.append_assoc] at hItem
            obtain ⟨c, hChar, hLast⟩ := getLast?_bullet text
            refine Text.not_isPrefix_of_ends ⟨c, hChar, ?_⟩ ?_ ?_ (behind_lineText rest) hItem
            · rw [List.getLast?_append, hLast, Option.some_or]
            · rw [List.getLast?_append, hEnd, Option.some_or]
            · rw [List.count_append, List.count_append]
              omega

/-- The nodes in lines start with the nodes in blocks only if blocks and lines are the same. -/
theorem blockText_isPrefix_lineText_iff {nodes : List Node} :
    (blockText asked nodes).toList <+: (lineText asked nodes).toList ↔
      nodes = [] ∨ ∃ node, nodes = [node] ∧ node.isLeaf = false := by
  constructor
  · intro h
    cases nodes with
    | nil => exact .inl rfl
    | cons node rest =>
        right
        rw [lineText_cons] at h
        cases hNode : node.isLeaf with
        | true =>
            obtain ⟨value, samples, rfl⟩ := exists_of_isLeaf hNode
            rw [blockText_leaf, Node.text] at h
            generalize leafText asked value samples = text at h
            simp only [String.toList_append, List.append_assoc] at h
            have hMark := (mark_isPrefix_bullet text).trans ((List.prefix_append _ _).trans h)
            exact absurd hMark (not_mark_isPrefix (behind_lineText rest))
        | false =>
            by_cases hRest : rest = []
            · exact ⟨node, hRest ▸ rfl, hNode⟩
            · rw [blockText_cons hNode, if_neg hRest, lineGap, if_neg hRest] at h
              simp only [String.toList_append] at h
              refine absurd h (not_isPrefix_lineText ?_ rest)
              rw [List.count_append, List.count_append]
              exact Nat.add_lt_add_left (by decide) _
  · rintro (rfl | ⟨node, rfl, hNode⟩)
    · exact List.prefix_rfl
    · rw [blockText_cons hNode, lineText_cons, blockText_nil, lineText_nil]
      exact List.prefix_rfl

end Node

/-! ## Decks -/

/-- The nodes of a deck, one per line, start with its text only if blocks and lines are the same
and there is no title. -/
theorem systemText_isPrefix_body_iff {d : Deck} {asked : List String} :
    (d.systemText asked).toList <+: (d.body asked).toList ↔
      d.title = none ∧ (d.layout = .tagged ∨ d.children = [] ∨
        ∃ node, d.children = [node] ∧ node.isLeaf = false) := by
  cases hTitle : d.title with
  | none =>
      cases hLayout : d.layout with
      | tagged =>
          rw [systemText_untitled hLayout hTitle]
          exact iff_of_true List.prefix_rfl ⟨rfl, .inl rfl⟩
      | markdown =>
          have hText : d.systemText asked = Node.blockText asked d.children := by
            rw [systemText_markdown hLayout, hTitle]
            rfl
          rw [hText, Deck.body, Node.blockText_isPrefix_lineText_iff]
          simp
  | some title =>
      refine iff_of_false (fun hStarts => ?_) (by simp)
      cases hLayout : d.layout with
      | tagged =>
          have hLonger : (d.body asked).toList.length < (d.systemText asked).toList.length := by
            rw [systemText_titled hLayout hTitle, titleText]
            split
            · next hEmpty => simp [hEmpty]
            · simp only [String.toList_append, List.length_append]
              have hMark : "# ".toList.length = 2 := by decide
              omega
          exact absurd hStarts.length_le (Nat.not_le.2 hLonger)
      | markdown =>
          rw [systemText_markdown hLayout, hTitle, Option.map_some, Option.toList_some,
            List.singleton_append, intercalate_cons, ← Node.blockText] at hStarts
          simp only [Node.blocks_eq_nil_iff, true_and] at hStarts
          by_cases hChildren : d.children = []
          · rw [body_of_children_nil hChildren, String.append_assoc, titleText, String.append_assoc,
              String.toList_append] at hStarts
            exact absurd (List.prefix_nil.1 hStarts) (by simp)
          · rw [if_neg hChildren, String.toList_append, Deck.body] at hStarts
            refine @Node.not_isPrefix_lineText asked [] _ ?_ d.children hStarts
            rw [String.toList_append, List.count_append, List.count_nil]
            exact Nat.lt_of_lt_of_le (by decide) (Nat.le_add_left _ _)

end Deckwright
