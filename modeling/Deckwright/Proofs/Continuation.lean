import Deckwright.Proofs.Blocks
import Deckwright.Proofs.Faults

/-!
# Going on from a deck

A builder that goes on from a deck (`Builder.ofDeck`) has the nodes, the variables and the tools of
the deck, but not its title and not its layout. So what it builds is without a title and tagged, and
it has the nodes of the deck in front, one per line (`build_ofDeck`). Whether the text of the deck
comes first, too, is a matter of what this text is.

Main result: `continues_iff`, which decks keep their text when they are gone on from, and which
decks are built again by no calls at all.
-/

namespace Deckwright

/-- What calls make of a deck. -/
def Deck.continued (d : Deck) (calls : List Call) : Deck :=
  { Deck.empty d.name with
    children := d.children ++ Call.nodesAll calls
    context := (Call.scopeFrom d.children.length calls).foldl mergeContext d.context
    tools := d.tools ++ Call.toolsAll calls }

/-- The deck comes first, and as it is, in all that calls make of it: none of its text changes,
whatever samples are asked for. -/
def Deck.Continues (d : Deck) : Prop :=
  ∀ calls, (Builder.performAll (.ofDeck d) calls).error = none →
    ∃ built, (Builder.performAll (.ofDeck d) calls).build = .ok built ∧
      ∀ asked, (d.systemText asked).toList <+: (built.systemText asked).toList

variable {d : Deck} {calls : List Call}

theorem Node.lineText_isPrefix_append (asked : List String) (nodes more : List Node) :
    (lineText asked nodes).toList <+: (lineText asked (nodes ++ more)).toList := by
  by_cases hNodes : nodes = []
  · rw [hNodes, lineText_nil]
    exact List.nil_prefix
  · by_cases hMore : more = []
    · simp only [hMore, List.append_nil, List.prefix_refl]
    · rw [lineText, lineText, texts_append, String.intercalate_append_of_ne_nil
        (by rwa [Ne, texts_eq_nil_iff]) (by rwa [Ne, texts_eq_nil_iff]), String.toList_append,
        String.toList_append, List.append_assoc]
      exact List.prefix_append _ _

/-- Calls of which none fails build what they describe behind the deck. -/
theorem build_ofDeck (h : (Builder.performAll (.ofDeck d) calls).error = none) :
    (Builder.performAll (.ofDeck d) calls).build = .ok (d.continued calls) := by
  obtain ⟨hError, hGrown⟩ := Builder.performAll_eq (.ofDeck d) rfl calls
  rw [h, eq_comm, List.head?_eq_none_iff] at hError
  rw [hGrown hError]
  rfl

theorem systemText_continued (asked : List String) :
    (d.continued calls).systemText asked =
      Node.lineText asked (d.children ++ Call.nodesAll calls) :=
  systemText_untitled rfl rfl

theorem continued_nil_eq_self_iff :
    d.continued [] = d ↔ d.title = none ∧ d.layout = .tagged ∧ blank d.name = false := by
  obtain ⟨name, title, layout, children, context, tools⟩ := d
  have hDefault : blank Deck.defaultName = false := by decide
  simp only [Deck.continued, Deck.empty, Call.nodesAll, Call.scopeFrom, Call.toolsAll,
    List.append_nil, List.foldl_nil, Deck.mk.injEq, and_true]
  constructor
  · rintro ⟨hName, rfl, rfl⟩
    refine ⟨rfl, rfl, ?_⟩
    split at hName
    · rwa [← hName]
    · next hBlank => simpa using hBlank
  · rintro ⟨rfl, rfl, hBlank⟩
    exact ⟨by rw [hBlank]; rfl, rfl, rfl⟩

/--
**Going on from a deck.** Calls of which none fails build a deck with the nodes of the given one in
front, and its text starts with these nodes, one per line. So the text of the given deck comes first
in all that is built on it exactly if this text is its nodes, one per line: if it has no title, and
is tagged, empty, or a single node without a mark. No calls at all build the deck itself exactly if
it has no title, is tagged and has a name.
-/
theorem continues_iff (d : Deck) :
    (∀ calls, (Builder.performAll (.ofDeck d) calls).error = none →
      (Builder.performAll (.ofDeck d) calls).build = .ok (d.continued calls) ∧
      ∀ asked, (d.body asked).toList <+: ((d.continued calls).systemText asked).toList) ∧
    (d.Continues ↔ d.title = none ∧ (d.layout = .tagged ∨ d.children = [] ∨
      ∃ node, d.children = [node] ∧ node.isLeaf = false)) ∧
    ((Builder.performAll (.ofDeck d) []).build = .ok d ↔
      d.title = none ∧ d.layout = .tagged ∧ blank d.name = false) := by
  have hFirst : ∀ calls asked, (d.body asked).toList <+:
      ((d.continued calls).systemText asked).toList := by
    intro calls asked
    rw [systemText_continued]
    exact Node.lineText_isPrefix_append asked d.children _
  refine ⟨fun calls hError => ⟨build_ofDeck hError, hFirst calls⟩, ?_, ?_⟩
  · constructor
    · -- without any calls what is built has just the nodes of the deck, one per line
      intro hContinues
      obtain ⟨built, hBuilt, hText⟩ := hContinues [] rfl
      rw [build_ofDeck rfl] at hBuilt
      injection hBuilt with hBuilt
      have hBody := hText []
      rw [← hBuilt, systemText_continued, Call.nodesAll, List.append_nil] at hBody
      exact systemText_isPrefix_body_iff.1 hBody
    · intro hDeck calls hError
      exact ⟨_, build_ofDeck hError, fun asked =>
        (systemText_isPrefix_body_iff.2 hDeck).trans (hFirst calls asked)⟩
  · rw [build_ofDeck rfl, Except.ok.injEq]
    exact continued_nil_eq_self_iff

/-- A deck of one item. -/
def userDeck : Deck :=
  { name := "d", children := [.leaf "user content" []] }

/-- Calls that set a group behind what is there, with a variable and a tool of its own. -/
def scaffoldCalls : List Call :=
  [.tool { name := "grade" }, .group "Evaluation" [.spec "grade it"],
    .context [(.string, "reply", "What was the reply?")]]

/-- The group comes behind the item, in the deck and in its text. -/
theorem continues_iff_scaffold :
    (Builder.performAll (.ofDeck userDeck) scaffoldCalls).error = none ∧
    (Builder.performAll (.ofDeck userDeck) scaffoldCalls).build =
      .ok (userDeck.continued scaffoldCalls) ∧
    userDeck.Continues ∧
    (Builder.performAll (.ofDeck userDeck) []).build = .ok userDeck ∧
    (userDeck.continued scaffoldCalls).systemText [] =
      "user content\n<Evaluation>\ngrade it\n</Evaluation>" := by
  have hError : (Builder.performAll (.ofDeck userDeck) scaffoldCalls).error = none := by
    decide +kernel
  obtain ⟨hBuild, hContinues, hSame⟩ := continues_iff userDeck
  exact ⟨hError, (hBuild scaffoldCalls hError).1, hContinues.2 ⟨rfl, .inl rfl⟩,
    hSame.2 ⟨rfl, rfl, by decide⟩, by decide +kernel⟩

/-- A deck in markdown with a title. -/
def titledDeck : Deck :=
  { name := "d", title := some "T", layout := .markdown, children := [.leaf "x" []] }

/-- The title and the mark of the item are lost, even without a call. -/
theorem not_continues_titled :
    titledDeck.systemText [] = "# T\n\n- x" ∧
    (∃ built, (Builder.performAll (.ofDeck titledDeck) []).build = .ok built ∧
      built.systemText [] = "x" ∧ built.title = none ∧ built.layout = .tagged) ∧
    ¬ titledDeck.Continues ∧
    (Builder.performAll (.ofDeck titledDeck) []).build ≠ .ok titledDeck := by
  have hText : titledDeck.systemText [] = "# T\n\n- x" := by decide +kernel
  have hBuilt : (titledDeck.continued []).systemText [] = "x" := by decide +kernel
  refine ⟨hText, ⟨_, build_ofDeck rfl, hBuilt, rfl, rfl⟩, ?_, ?_⟩
  · intro hContinues
    obtain ⟨built, hOk, hFirst⟩ := hContinues [] rfl
    rw [build_ofDeck rfl] at hOk
    injection hOk with hOk
    have hStart := hFirst []
    rw [← hOk, hText, hBuilt] at hStart
    exact absurd hStart (by decide)
  · rw [build_ofDeck rfl]
    intro hSame
    injection hSame with hSame
    cases congrArg Deck.title hSame

end Deckwright
