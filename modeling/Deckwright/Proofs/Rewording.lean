import Deckwright.Proofs.Gate
import Deckwright.Proofs.LeafTexts

/-!
# What the gate keeps back

A sample that does not pass the gate of its leaf leaves no trace in the text of a deck: two decks
that differ only in what such samples say have the same text (`systemText_of_reworded`).

There are two ways into the text, and a sample that is kept back takes neither of them. A marker
looks up the first sample of its identifier, and if that sample is the one kept back, all that
matters of it is that it does not pass, which its identifier and its score decide. The samples
behind the text are filtered one by one, and by the same gate.
-/

namespace Deckwright

/-- The second sample is the first one, or the first one does not pass the gate of its leaf and the
second one says something else under the same identifier and with the same score. -/
inductive Sample.Reworded (asked : List String) (value : String) (s : Sample) : Sample → Prop where
  | same : Reworded asked value s s
  | hidden (h : ¬ s.Passes asked value) (text : String)
      (description userMessage assistantResponse : Option String) :
      Reworded asked value s { s with text, description, userMessage, assistantResponse }

mutual

/-- The nodes differ at most in what samples say that do not pass the gate. -/
inductive Node.Reworded (asked : List String) : Node → Node → Prop where
  | leaf {value : String} {samples others : List Sample}
      (h : List.Forall₂ (Sample.Reworded asked value) samples others) :
      Node.Reworded asked (.leaf value samples) (.leaf value others)
  | lead (text : String) : Node.Reworded asked (.lead text) (.lead text)
  | group {header : Header} {children others : List Node}
      (h : Node.RewordedAll asked children others) :
      Node.Reworded asked (.group header children) (.group header others)

/-- `Node.Reworded` for the nodes of two lists, one after the other. -/
inductive Node.RewordedAll (asked : List String) : List Node → List Node → Prop where
  | nil : Node.RewordedAll asked [] []
  | cons {node other : Node} {rest others : List Node} (hNode : Node.Reworded asked node other)
      (hRest : Node.RewordedAll asked rest others) :
      Node.RewordedAll asked (node :: rest) (other :: others)

end

/-! ## Leaves -/

namespace Sample.Reworded

variable {asked : List String} {value : String} {s other : Sample}

theorem id_eq (h : s.Reworded asked value other) : other.id = s.id := by
  cases h <;> rfl

theorem score_eq (h : s.Reworded asked value other) : other.score = s.score := by
  cases h <;> rfl

/-- The gate looks at nothing that is reworded. -/
theorem renders_eq (h : s.Reworded asked value other) (referenced : Bool) :
    other.renders referenced asked = s.renders referenced asked := by
  rw [renders, renders, isInert, isInert, h.id_eq, h.score_eq]

/-- A sample that passes the gate is not reworded. -/
theorem eq_of_passes (h : s.Reworded asked value other) (hPasses : s.Passes asked value) :
    other = s := by
  cases h with
  | same => rfl
  | hidden hHidden => exact absurd hPasses hHidden

end Sample.Reworded

section Leaves

variable {asked : List String} {value : String} {samples others : List Sample}

/-- The first samples of an identifier are each other's rewordings. -/
theorem find?_of_reworded (h : List.Forall₂ (Sample.Reworded asked value) samples others)
    (id : String) :
    (samples.find? (fun s => s.id = some id) = none ∧
      others.find? (fun s => s.id = some id) = none) ∨
    ∃ s other, samples.find? (fun s => s.id = some id) = some s ∧
      others.find? (fun s => s.id = some id) = some other ∧ s.Reworded asked value other := by
  induction h with
  | nil => exact .inl ⟨rfl, rfl⟩
  | @cons s other rest more hSample hRest ih =>
      rw [List.find?_cons, List.find?_cons, hSample.id_eq]
      split
      · exact .inr ⟨s, other, rfl, rfl, hSample⟩
      · exact ih

/-- A segment of the value has the same text: a marker gives way to the same sample or to nothing. -/
theorem text_segment_of_reworded
    (h : List.Forall₂ (Sample.Reworded asked value) samples others) (segment : Segment) :
    segment.text asked others = segment.text asked samples := by
  cases segment with
  | character c => rfl
  | marker spaced id =>
      simp only [Segment.text]
      rcases find?_of_reworded h (String.ofList id) with
        ⟨hNone, hOther⟩ | ⟨s, other, hSome, hOther, hReworded⟩
      · rw [hNone, hOther]
      · rw [hSome, hOther]
        show (if other.renders true asked then _ else _) = if s.renders true asked then _ else _
        rw [hReworded.renders_eq]
        split
        · rename_i hRenders
          -- a sample that is rendered in the place of a marker is asked for, so it passes
          obtain ⟨hScore, hAsked⟩ := Sample.renders_iff.1 hRenders
          obtain ⟨own, hOwn, hMem⟩ := hAsked rfl
          have hPasses : s.Passes asked value :=
            ⟨hScore, fun name hName _ => Option.some.inj (hOwn.symm.trans hName) ▸ hMem⟩
          rw [hReworded.eq_of_passes hPasses]
        · rfl

/-- The samples behind the text are the same. -/
theorem appendedSamples_of_reworded
    (h : List.Forall₂ (Sample.Reworded asked value) samples others) :
    appendedSamples asked value others = appendedSamples asked value samples := by
  induction h with
  | nil => rfl
  | @cons s other rest more hSample hRest ih =>
      have hSame : (!other.referencedIn (footnoteRefs value) && other.renders false asked) =
          (!s.referencedIn (footnoteRefs value) && s.renders false asked) := by
        rw [Sample.referencedIn, Sample.referencedIn, hSample.id_eq, hSample.renders_eq]
      rw [appendedSamples, appendedSamples] at ih
      rw [appendedSamples, appendedSamples, List.filter_cons, List.filter_cons, ih, hSame]
      split
      · rename_i hKept
        have hMem : s ∈ appendedSamples asked value [s] :=
          List.mem_filter.2 ⟨List.mem_cons_self, hKept⟩
        obtain ⟨-, hReferred, hScore⟩ := mem_appendedSamples.1 hMem
        have hPasses : s.Passes asked value :=
          ⟨hScore, fun id hId hRefers => absurd ⟨id, hId, hRefers⟩ hReferred⟩
        rw [hSample.eq_of_passes hPasses]
      · rfl

/-- The text of a leaf is the same. -/
theorem leafText_of_reworded (h : List.Forall₂ (Sample.Reworded asked value) samples others) :
    leafText asked value others = leafText asked value samples := by
  have hText : Segment.text asked others = Segment.text asked samples :=
    funext (text_segment_of_reworded h)
  rw [leafText, leafText, hText, appendedSamples_of_reworded h]

end Leaves

/-! ## Decks -/

mutual

/-- Nodes that are reworded have the same text, leaf by leaf. -/
theorem Node.sameText_of_reworded {asked : List String} {node other : Node}
    (h : Node.Reworded asked node other) : Node.SameText asked asked node other := by
  cases h with
  | leaf hSamples => exact .leaf (leafText_of_reworded hSamples).symm
  | lead text => exact .lead text
  | group hChildren => exact .group (Node.sameTextAll_of_reworded hChildren)

theorem Node.sameTextAll_of_reworded {asked : List String} {nodes others : List Node}
    (h : Node.RewordedAll asked nodes others) : Node.SameTextAll asked asked nodes others := by
  cases h with
  | nil => exact .nil
  | cons hNode hRest =>
      exact .cons (Node.sameText_of_reworded hNode) (Node.sameTextAll_of_reworded hRest)

end

theorem Node.texts_of_reworded {asked : List String} {nodes others : List Node}
    (h : Node.RewordedAll asked nodes others) : Node.texts asked others = Node.texts asked nodes :=
  (Node.texts_of_sameText (Node.sameTextAll_of_reworded h)).symm

theorem Node.blocks_of_reworded {asked bullets : List String} {nodes others : List Node}
    (h : Node.RewordedAll asked nodes others) :
    Node.blocks asked bullets others = Node.blocks asked bullets nodes :=
  (Node.blocks_of_sameText (Node.sameTextAll_of_reworded h)).symm

/-- What samples say that do not pass the gate makes no difference to the text of a deck, at any
depth and in both layouts. -/
theorem systemText_of_reworded {asked : List String} {d : Deck} {children : List Node}
    (h : Node.RewordedAll asked d.children children) :
    ({ d with children } : Deck).systemText asked = d.systemText asked := by
  simp only [Deck.systemText]
  rw [Node.texts_of_reworded h, Node.blocks_of_reworded h]

/-- Samples with a text that is not for everyone: one with score 0, two of one identifier, and an
ordinary one behind them. -/
def guarded (secret : String) : List Sample :=
  [{ id := some "a", text := secret, score := 0 }, { id := some "b", text := secret, score := 2 },
    { id := some "b", text := secret, score := 1 }, { text := "plain", score := 1 }]

/-- A leaf that refers to them, in a group in markdown layout in a tagged group. -/
def guardedNodes (secret : String) : List Node :=
  [.group { name := "G" }
    [.lead "x", .group { name := "H", layout := .markdown, level := 2 }
      [.leaf "Note [^a] [^b]" (guarded secret)]]]

theorem not_passes_of_referred {value id : String} {s : Sample} (hId : s.id = some id)
    (hRefers : id ∈ footnoteRefs value) : ¬ s.Passes [] value :=
  Sample.not_passes_iff.2 (.inr ⟨id, hId, mem_footnoteRefs.1 hRefers, List.not_mem_nil⟩)

theorem reworded_guarded (secret other : String) :
    Node.RewordedAll [] (guardedNodes secret) (guardedNodes other) := by
  have hScore : ¬ Sample.Passes [] "Note [^a] [^b]" { id := some "a", text := secret, score := 0 } :=
    Sample.not_passes_iff.2 (.inl rfl)
  have hRefers : "b" ∈ footnoteRefs "Note [^a] [^b]" := by decide +kernel
  have hSamples : List.Forall₂ (Sample.Reworded [] "Note [^a] [^b]") (guarded secret)
      (guarded other) :=
    .cons (.hidden hScore other none none none)
      (.cons (.hidden (not_passes_of_referred rfl hRefers) other none none none)
        (.cons (.hidden (not_passes_of_referred rfl hRefers) other none none none)
          (.cons .same .nil)))
  exact .cons (.group (.cons (.lead "x") (.cons (.group (.cons (.leaf hSamples) .nil)) .nil))) .nil

/-- The deck of these nodes. -/
def guardedDeck (secret : String) : Deck :=
  { name := "d", children := guardedNodes secret }

/-- Nobody asks for the samples, and the text of the deck is the same whatever they say. -/
theorem systemText_of_reworded_guarded :
    ({ guardedDeck "secret" with children := guardedNodes "other" } : Deck).systemText [] =
      (guardedDeck "secret").systemText [] ∧
    (guardedDeck "secret").systemText [] =
      "<G>\nx\n## H\n\n- Note\n  <samples>\n  <sample score=\"1\">plain</sample>\n  </samples>\n</G>" :=
  ⟨@systemText_of_reworded [] (guardedDeck "secret") _ (reworded_guarded "secret" "other"),
    by decide +kernel⟩

end Deckwright
