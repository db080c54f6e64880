import Deckwright.Proofs.Everywhere
import Deckwright.Proofs.Gate
import Deckwright.Proofs.LeafTexts
import Deckwright.Proofs.OrderedMaps
import Deckwright.Proofs.Redeclarations
import Deckwright.Render

/-!
# What rendering reads of its options

Of the values a rendering reads those of variables that the deck or a group declares, and of the
samples asked for those that a leaf has and refers to. Both are said without the walk over the
scopes and without the gate: `Deck.Declares` and `Deck.Offers` look at all nodes that stand in the
deck, at whatever depth.

* `leafText_of_askedAlike`: a leaf asks only about samples of its own that it refers to.
* `systemText_of_alike`: so the text of a deck asks only about samples that the deck offers.
* `declares_of_mem_allContext`: every variable of a deck was declared somewhere in it.

Main result: `render_of_agrees`, for two renderings of one deck.
-/

namespace Deckwright

/-! ## Samples -/

/-- Both lists ask for the same ones among the samples of a leaf that the leaf refers to. -/
def Node.AskedAlike (asked others : List String) : Node → Prop
  | .leaf value samples => ∀ s ∈ samples, ∀ id, s.id = some id → Refers value id →
      (id ∈ asked ↔ id ∈ others)
  | _ => True

section Leaves

variable {asked others : List String} {value : String} {samples : List Sample}

/-- A marker among the segments of a text is one that refers. -/
theorem refers_of_marker {spaced : Bool} {name : List Char}
    (h : Segment.marker spaced name ∈ segments value.toList) :
    Refers value (String.ofList name) := by
  have hName : name ∈ (segments value.toList).filterMap Segment.marker? :=
    List.mem_filterMap.2 ⟨_, h, rfl⟩
  rw [filterMap_marker?_segments] at hName
  exact ⟨_, markers_markerIds _, by rwa [String.toList_ofList]⟩

theorem renders_of_asked {s : Sample} {id : String} (hId : s.id = some id)
    (h : id ∈ asked ↔ id ∈ others) : s.renders true asked = s.renders true others := by
  rw [Bool.eq_iff_iff, Sample.renders_iff, Sample.renders_iff]
  simp [hId, h]

/-- A leaf has the same text if the same ones of its samples are asked for. -/
theorem leafText_of_askedAlike (h : Node.AskedAlike asked others (.leaf value samples)) :
    leafText asked value samples = leafText others value samples := by
  have hText : (segments value.toList).flatMap (Segment.text asked samples) =
      (segments value.toList).flatMap (Segment.text others samples) := by
    refine List.flatMap_congr fun segment hSegment => ?_
    cases segment with
    | character c => rfl
    | marker spaced name =>
        rw [Segment.text, Segment.text]
        split
        · rename_i s hFound
          have hId : s.id = some (String.ofList name) := by
            simpa using List.find?_some hFound
          rw [renders_of_asked hId (h s (List.mem_of_find?_eq_some hFound) _ hId
            (refers_of_marker hSegment))]
        · rfl
  -- what stands behind the text is not asked for
  have hAppended : appendedSamples asked value samples = appendedSamples others value samples :=
    rfl
  rw [leafText, leafText, hText, hAppended]

end Leaves

mutual

theorem Node.sameText_of_askedAlike {asked others : List String} {node : Node}
    (h : Node.Everywhere (AskedAlike asked others) [node]) :
    Node.SameText asked others node node := by
  cases node with
  | leaf value samples =>
      exact .leaf (leafText_of_askedAlike (everywhere_iff.1 h _ List.mem_cons_self).1)
  | lead text => exact .lead text
  | group header children =>
      exact .group (Node.sameTextAll_of_askedAlike (everywhere_group.1 h).2)

theorem Node.sameTextAll_of_askedAlike {asked others : List String} {nodes : List Node}
    (h : Node.Everywhere (AskedAlike asked others) nodes) :
    Node.SameTextAll asked others nodes nodes := by
  cases nodes with
  | nil => exact .nil
  | cons node rest =>
      obtain ⟨hNode, hRest⟩ := everywhere_cons.1 h
      exact .cons (Node.sameText_of_askedAlike hNode) (Node.sameTextAll_of_askedAlike hRest)

end

/-- A leaf of the deck has a sample of the identifier and refers to it. -/
def Deck.Offers (d : Deck) (id : String) : Prop :=
  ∃ value samples, Node.Stand [.leaf value samples] d.children ∧ Refers value id ∧
    ∃ s ∈ samples, s.id = some id

/-- The text of a deck tells apart only which of the samples that it offers are asked for. -/
theorem systemText_of_alike {d : Deck} {asked others : List String}
    (h : ∀ id, d.Offers id → (id ∈ asked ↔ id ∈ others)) :
    d.systemText asked = d.systemText others := by
  refine systemText_of_sameText (Node.sameTextAll_of_askedAlike fun node hStand => ?_)
  cases node with
  | leaf value samples =>
      intro s hMem id hId hRefers
      exact h id ⟨value, samples, hStand, hRefers, s, hMem, hId⟩
  | lead text => trivial
  | group header children => trivial

/-! ## Values -/

/-- The value that is shown for a name; `null` is none. -/
def shownValue (values : Json.Fields) (name : String) : Option Json :=
  (values.get? name).filter fun value => !value.isNull

/-- A variable is asked for, and answered, if it has a value to show. -/
theorem messages_eq (values : Json.Fields) (v : ContextVariable) :
    v.messages values = (shownValue values v.name).elim [] fun value =>
      [.assistant v.question, .user value.messageText] := by
  rw [ContextVariable.messages, shownValue]
  cases values.get? v.name with
  | none => rfl
  | some value => cases hNull : value.isNull <;> simp [Option.filter, hNull]

/-- The messages of a variable tell of its value only what is shown. -/
theorem messages_of_shownValue {values others : Json.Fields} {v : ContextVariable}
    (h : shownValue values v.name = shownValue others v.name) :
    v.messages values = v.messages others := by
  rw [messages_eq, messages_eq, h]

/-- The deck or one of its groups, at any depth, declares a variable of the name. -/
def Deck.Declares (d : Deck) (name : String) : Prop :=
  name ∈ d.context.map ContextVariable.name ∨
    ∃ header children, Node.Stand [.group header children] d.children ∧
      name ∈ header.context.map ContextVariable.name

mutual

/-- What the walk meets in the scope of a node was declared by a group in it. -/
theorem Node.exists_of_mem_declarations {node : Node} {v : ContextVariable}
    (h : v ∈ node.declarations) :
    ∃ header children, Node.Stand [.group header children] [node] ∧ v ∈ header.context := by
  cases node with
  | leaf value samples => cases h
  | lead text => cases h
  | group header children =>
      rcases Node.exists_of_mem_declarationsFrom h with hOwn | ⟨inner, below, hStand, hMem⟩
      · exact ⟨header, children, .here (List.infix_refl _), hOwn⟩
      · exact ⟨inner, below, .within List.mem_cons_self hStand, hMem⟩

/-- What the walk meets in a scope was declared by the scope or by a group in it. -/
theorem Node.exists_of_mem_declarationsFrom {declared : List ContextVariable} {total index : Nat}
    {nodes : List Node} {v : ContextVariable}
    (h : v ∈ Node.declarationsFrom declared total index nodes) :
    v ∈ declared ∨
      ∃ header children, Node.Stand [.group header children] nodes ∧ v ∈ header.context := by
  cases nodes with
  | nil => exact .inl (List.mem_of_mem_filter h)
  | cons node rest =>
      rw [Node.declarationsFrom, List.append_assoc, List.mem_append, List.mem_append] at h
      rcases h with hOwn | hNode | hRest
      · exact .inl (List.mem_of_mem_filter hOwn)
      · obtain ⟨header, children, hStand, hMem⟩ := Node.exists_of_mem_declarations hNode
        exact .inr ⟨header, children, hStand.append_right rest, hMem⟩
      · refine (Node.exists_of_mem_declarationsFrom hRest).imp_right ?_
        rintro ⟨header, children, hStand, hMem⟩
        exact ⟨header, children, hStand.append_left [node], hMem⟩

end

theorem declares_of_mem_allContext {d : Deck} {v : ContextVariable} (h : v ∈ d.allContext) :
    d.Declares v.name := by
  obtain ⟨w, hMem, hName⟩ := List.mem_map.1 (mem_names_mergedContext.1 (List.mem_map_of_mem h))
  rw [← hName]
  rcases Node.exists_of_mem_declarationsFrom hMem with hOwn | ⟨header, children, hStand, hGroup⟩
  · exact .inl (List.mem_map_of_mem hOwn)
  · exact .inr ⟨header, children, hStand, List.mem_map_of_mem hGroup⟩

/-- The messages of a deck tell of the values only what is shown for the names that it declares. -/
theorem contextMessages_of_alike {d : Deck} {values others : Json.Fields}
    (h : ∀ name, d.Declares name → shownValue values name = shownValue others name) :
    d.contextMessages values = d.contextMessages others :=
  List.flatMap_congr fun _ hMem => messages_of_shownValue (h _ (declares_of_mem_allContext hMem))

/-! ## Renderings -/

/-- Two renderings of a deck are given the same, as far as the deck declares or offers it. -/
structure RenderOptions.Agrees (d : Deck) (options other : RenderOptions) : Prop where
  values : ∀ name, d.Declares name →
    shownValue options.context name = shownValue other.context name
  samples : ∀ id, d.Offers id → (id ∈ options.renderedSamples ↔ id ∈ other.renderedSamples)
  rest : other = { options with
    context := other.context
    renderedSamples := other.renderedSamples }

theorem RenderOptions.Agrees.render_eq {d : Deck} {options other : RenderOptions}
    (h : options.Agrees d other) :
    { d.render options with metadata := none } = { d.render other with metadata := none } := by
  rw [h.rest]
  simp only [Deck.render, systemText_of_alike h.samples, contextMessages_of_alike h.values]

/--
**Rendering reads what the deck declares.** Two renderings of a deck give the same request but for
the note if they agree on the values of the names that the deck declares, `null` being no value,
and on which of the samples that it offers are asked for. So it makes no difference in which order
and how often samples are asked for, whether samples are asked for that the deck does not offer,
and what values names have that it does not declare.
-/
theorem render_of_agrees (d : Deck) (options : RenderOptions) :
    (∀ other, options.Agrees d other →
      { d.render options with metadata := none } = { d.render other with metadata := none }) ∧
    (∀ ids : List String, (∀ id, id ∈ options.renderedSamples ↔ id ∈ ids) →
      { d.render options with metadata := none } =
        { d.render { options with renderedSamples := ids } with metadata := none }) ∧
    (∀ id, ¬ d.Offers id →
      { d.render options with metadata := none } =
        { d.render { options with renderedSamples := id :: options.renderedSamples } with
          metadata := none }) ∧
    ∀ name value, ¬ d.Declares name →
      { d.render options with metadata := none } =
        { d.render (options.withContext name value) with metadata := none } := by
  refine ⟨fun other h => h.render_eq, fun ids hIds => ?_, fun id hId => ?_,
    fun name value hName => ?_⟩ <;> apply RenderOptions.Agrees.render_eq
  · exact { values := fun _ _ => rfl, samples := fun id _ => hIds id, rest := rfl }
  · refine { values := fun _ _ => rfl, samples := fun other hOther => ?_, rest := rfl }
    have hNe : other ≠ id := by
      rintro rfl
      exact hId hOther
    simp [hNe]
  · refine { values := fun other hOther => ?_, samples := fun _ _ => Iff.rfl, rest := rfl }
    have hNe : other ≠ name := by
      rintro rfl
      exact hName hOther
    show shownValue options.context other = shownValue (options.context.insert name value) other
    rw [shownValue, shownValue, Ordered.get?_insert, if_neg hNe]

/-- A deck that declares a name of its own and one in a group, and refers to one of two samples. -/
def readerDeck : Deck :=
  { name := "d"
    context := [{ name := "who", kind := .string, question := "Who?" }]
    children := [.leaf "Note [^a]"
        [{ id := some "a", text := "x", score := 1 }, { id := some "b", text := "y", score := 0 }],
      .group { name := "G", context := [{ name := "age", kind := .number, question := "Age?" }] }
        [.lead "z"]] }

/-- Values of the two names and of one that the deck does not declare; `b` is asked for, but the
deck does not refer to it. -/
def readerOptions : RenderOptions :=
  { context := [("age", .int 3), ("who", .null), ("zip", .string "1")]
    renderedSamples := ["b", "a", "a"] }

/-- What the deck reads of these options. -/
def readerEssence : RenderOptions :=
  { context := [("age", .int 3)], renderedSamples := ["a"] }

theorem readerOptions_agrees : readerOptions.Agrees readerDeck readerEssence where
  values := by
    have hGroups : Node.Everywhere (fun node => ∀ header children, node = .group header children →
        header.context.map ContextVariable.name = ["age"]) readerDeck.children := by
      refine Node.everywhere_cons.2
        ⟨Node.everywhere_singleton rfl (by simp),
          Node.everywhere_group.2 ⟨?_, Node.everywhere_singleton rfl (by simp)⟩⟩
      rintro _ _ ⟨⟩
      rfl
    rintro name (hOwn | ⟨header, children, hStand, hGroup⟩)
    · obtain rfl := List.mem_singleton.1 hOwn
      rfl
    · rw [hGroups _ hStand _ _ rfl, List.mem_singleton] at hGroup
      rw [hGroup]
      rfl
  samples := by
    have hLeaves : Node.Everywhere (fun node => ∀ value samples, node = .leaf value samples →
        value = "Note [^a]") readerDeck.children := by
      refine Node.everywhere_cons.2
        ⟨Node.everywhere_singleton rfl ?_,
          Node.everywhere_group.2 ⟨by simp, Node.everywhere_singleton rfl (by simp)⟩⟩
      rintro _ _ ⟨⟩
      rfl
    rintro id ⟨value, samples, hStand, hRefers, -⟩
    have hRefs : footnoteRefs "Note [^a]" = ["a"] := by decide +kernel
    rw [hLeaves _ hStand _ _ rfl, ← mem_footnoteRefs, hRefs, List.mem_singleton] at hRefers
    rw [hRefers]
    decide
  rest := rfl

/-- Both renderings give one request, which tells of the age and of the first sample. -/
theorem render_of_agrees_reader :
    { readerDeck.render readerOptions with metadata := none } =
      { readerDeck.render readerEssence with metadata := none } ∧
    (readerDeck.render readerOptions).messages =
      [.system "Note <sample id=\"a\" score=\"1\">x</sample>\n<G>\nz\n</G>",
        .assistant "Age?", .user "3"] :=
  ⟨(render_of_agrees readerDeck readerOptions).1 readerEssence readerOptions_agrees,
    by decide +kernel⟩

end Deckwright
