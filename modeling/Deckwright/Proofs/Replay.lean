import Deckwright.Proofs.Faults
import Deckwright.Proofs.SampleBinding
import Deckwright.Proofs.WellFormed

/-!
# Decks as programs

A deck can be made again on a builder, call by call: a call for each leaf, lead and group, and for
each variable where it stands in its scope, and then one for each tool (`Deck.calls`). Of these
calls the builder refuses the ones that have blank texts or scores out of range.

The texts and scores of a deck that is read are fit for a builder. But a TOML file may declare
variables and tools of any name, and nobody looks whether the name is blank. So for such a deck the
builder has an error exactly if some name of a variable or a tool is blank (`replay_of_reads`).
-/

namespace Deckwright

/-- The call that declares the variable. -/
def ContextVariable.call (v : ContextVariable) : Call :=
  .context [(v.kind, v.name, v.question)]

mutual

/-- The call that makes the node again. -/
def Node.call : Node → Call
  | .leaf value samples => .specWith value (.list samples)
  | .lead text => .lead text
  | .group header children =>
    .group header.name (Node.callsFrom header.context children.length 0 children)

/-- The calls that make a scope with `total` children again, from child `index` on, whose nodes are
given. -/
def Node.callsFrom (declared : List ContextVariable) (total index : Nat) : List Node → List Call
  | [] => (declaredAt declared total index).map ContextVariable.call
  | node :: rest =>
    (declaredAt declared total index).map ContextVariable.call ++
      node.call :: Node.callsFrom declared total (index + 1) rest

end

/-- The calls that make the deck again. -/
def Deck.calls (d : Deck) : List Call :=
  Node.callsFrom d.context d.children.length 0 d.children ++ d.tools.map Call.tool

/-! ## Faults of the calls -/

/-- What is wrong with the names of variables. -/
def ContextVariable.faults (declared : List ContextVariable) : List BuildError :=
  declared.flatMap fun v => (BuildError.emptyContextName v.question).ofBlank v.name

/-- What is wrong with the names of tools. -/
def Tool.faults (tools : List Tool) : List BuildError :=
  tools.flatMap fun t => BuildError.emptyToolName.ofBlank t.name

/-- The node has what a builder asks for, its variables apart. -/
def Node.Fit : Node → Prop
  | .leaf value samples => blank value = false ∧ Sample.faults samples = []
  | .lead text => blank text = false
  | .group header _ => blank header.name = false

namespace Call

theorem faultsAll_append (calls more : List Call) :
    faultsAll (calls ++ more) = faultsAll calls ++ faultsAll more := by
  induction calls with
  | nil => rfl
  | cons call rest ih => rw [List.cons_append, faultsAll, faultsAll, ih, List.append_assoc]

theorem faultsAll_contexts (declared : List ContextVariable) :
    faultsAll (declared.map ContextVariable.call) = ContextVariable.faults declared := by
  induction declared with
  | nil => rfl
  | cons v rest ih =>
      rw [List.map_cons, faultsAll, ih, ContextVariable.call, faults, ContextVariable.faults,
        ContextVariable.faults, List.flatMap_cons, List.flatMap_cons, List.flatMap_nil,
        List.append_nil]

theorem faultsAll_tools (tools : List Tool) :
    faultsAll (tools.map Call.tool) = Tool.faults tools := by
  induction tools with
  | nil => rfl
  | cons t rest ih =>
      rw [List.map_cons, faultsAll, ih, faults, Tool.faults, Tool.faults, List.flatMap_cons]

end Call

namespace Node

theorem faults_append (declared more : List ContextVariable) :
    ContextVariable.faults (declared ++ more) =
      ContextVariable.faults declared ++ ContextVariable.faults more :=
  List.flatMap_append

mutual

theorem faults_call (node : Node) (h : Everywhere Fit [node]) :
    node.call.faults = ContextVariable.faults node.declarations := by
  cases node with
  | leaf value samples =>
      obtain ⟨hValue, hSamples⟩ := h _ (stand_singleton_iff.2 (.inl List.mem_cons_self))
      rw [call, Call.faults, BuildError.ofBlank_eq_nil_iff.2 hValue, Samples.faults, hSamples]
      simp only [declarations]
      rfl
  | lead text =>
      have hText : blank text = false := h _ (stand_singleton_iff.2 (.inl List.mem_cons_self))
      rw [call, Call.faults, BuildError.ofBlank_eq_nil_iff.2 hText]
      simp only [declarations]
      rfl
  | group header children =>
      obtain ⟨hName, hChildren⟩ := everywhere_group.1 h
      rw [call, Call.faults, BuildError.ofBlank_eq_nil_iff.2 hName, List.nil_append, declarations]
      exact faultsAll_callsFrom header.context children.length 0 children hChildren

/-- Of the calls for fit nodes only those for variables may have faults. -/
theorem faultsAll_callsFrom (declared : List ContextVariable) (total index : Nat)
    (nodes : List Node) (h : Everywhere Fit nodes) :
    Call.faultsAll (callsFrom declared total index nodes) =
      ContextVariable.faults (declarationsFrom declared total index nodes) := by
  cases nodes with
  | nil => exact Call.faultsAll_contexts _
  | cons node rest =>
      obtain ⟨hNode, hRest⟩ := everywhere_cons.1 h
      rw [callsFrom, Call.faultsAll_append, Call.faultsAll, Call.faultsAll_contexts,
        faults_call node hNode, faultsAll_callsFrom declared total (index + 1) rest hRest,
        declarationsFrom, faults_append, faults_append, List.append_assoc]

end

end Node

/-! ## Decks that are read -/

namespace Document

open Node (Everywhere Fit)

theorem kept_fit : Kept Fit where
  title := blank_titleLead
  grow _ h := h
  merge _ h := h

theorem Part.TextOk.makes_fit {part : Part} (h : part.TextOk) : part.Makes Fit := by
  cases part with
  | heading level text => exact h.2.blank
  | leaf text => exact ⟨h.blank, rfl⟩
  | lead text => exact h
  | definitions declared => trivial
  | document path fragment parts => trivial
  | failed error => trivial

/-- Attached samples have scores that a builder accepts, if all samples of the map have. -/
theorem fit_attach {named : Ordered Sample}
    (hNamed : ∀ id s, named.get? id = some s → s.scoreInRange) (node : Node) (h : Fit node) :
    Fit (node.attach named) := by
  cases node with
  | leaf value samples =>
      obtain ⟨hValue, hSamples⟩ := h
      refine ⟨hValue, ?_⟩
      have hAttached :
          Sample.faults ((footnoteRefs value).filterMap fun id => named.get? id) = [] := by
        rw [Sample.faults, List.map_eq_nil_iff, List.filter_eq_nil_iff]
        intro s hMem
        obtain ⟨id, -, hFound⟩ := List.mem_filterMap.1 hMem
        simp [hNamed id s hFound]
      rw [Sample.faults, List.filter_append, List.map_append]
      exact List.append_eq_nil_iff.2 ⟨hSamples, hAttached⟩
  | lead text => exact h
  | group header children => exact h

/-- All nodes of a deck that is read are fit for a builder. -/
theorem fit_of_reads {files : Files} {top : Source} {result : ReadDeck}
    (h : Reads files top result) : Everywhere Fit result.deck.children := by
  obtain ⟨doc, hDoc, rfl⟩ := h.exists_doc
  have hNamed : ∀ id s, doc.namedSamples.get? id = some s → s.scoreInRange := by
    intro id s hFound
    obtain ⟨-, before, later, hList, -⟩ := doc.get?_namedSamples.1 hFound
    have hMem : s ∈ Part.samplesAll (top.parts files) := by
      rw [← samples_ofParts hDoc, hList]
      exact List.mem_append_right before List.mem_cons_self
    have hDeclared := top.declared_of_mem hMem
    exact Sample.validScore_iff.2 ⟨hDeclared.least, hDeclared.greatest⟩
  exact everywhere_attachAll (fit_attach hNamed)
    (everywhere_ofParts kept_fit (fun part hIn => (top.textOk_of_in hIn).makes_fit) hDoc)

end Document

/-- The faults of a deck that is fit apart from its variables and tools. -/
theorem Deck.faultsAll_calls {d : Deck} (h : Node.Everywhere Node.Fit d.children) :
    Call.faultsAll d.calls = ContextVariable.faults d.declarations ++ Tool.faults d.tools := by
  rw [calls, Call.faultsAll_append, Call.faultsAll_tools, Node.faultsAll_callsFrom _ _ _ _ h]
  rfl

theorem ContextVariable.faults_eq_nil_iff {declared : List ContextVariable} :
    faults declared = [] ↔ ∀ v ∈ declared, blank v.name = false := by
  rw [faults, List.flatMap_eq_nil_iff]
  simp only [BuildError.ofBlank_eq_nil_iff]

theorem Tool.faults_eq_nil_iff {tools : List Tool} :
    faults tools = [] ↔ ∀ t ∈ tools, blank t.name = false := by
  rw [faults, List.flatMap_eq_nil_iff]
  simp only [BuildError.ofBlank_eq_nil_iff]

namespace Document

/--
**Which decks a builder refuses.** The calls that make a deck again that was read have an error
exactly if a variable of the deck or of one of its groups has a blank name, or a tool has one. It
is the error of the first such variable, and of a tool only if all variables have names.
-/
theorem replay_of_reads {files : Files} {top : Source} {result : ReadDeck}
    (h : Reads files top result) (name : String) :
    (Builder.performAll { name } result.deck.calls).error =
      (ContextVariable.faults result.deck.declarations ++ Tool.faults result.deck.tools).head? ∧
    ((Builder.performAll { name } result.deck.calls).error = none ↔
      (∀ v ∈ result.deck.declarations, blank v.name = false) ∧
        ∀ t ∈ result.deck.tools, blank t.name = false) := by
  have hFaults := Deck.faultsAll_calls (fit_of_reads h)
  obtain ⟨hError, -⟩ := Builder.performAll_eq { name } rfl result.deck.calls
  rw [hFaults] at hError
  refine ⟨hError, ?_⟩
  rw [hError, List.head?_eq_none_iff, List.append_eq_nil_iff, ContextVariable.faults_eq_nil_iff,
    Tool.faults_eq_nil_iff]

/-- A file that declares a variable, a sample and a tool, and one whose names are blank. -/
def namedFiles : Files :=
  [(.ofString "slots.toml",
      "[contexts.user]\ntype = \"string\"\nquestion = \"Who?\"\n\n" ++
        "[samples.warm]\ntext = \"Hi!\"\nscore = 3\n\n[[tools]]\nname = \"look\""),
    (.ofString "blank.toml",
      "[contexts.\" \"]\ntype = \"string\"\nquestion = \"Who?\"\n\n[[tools]]\nname = \"\"")]

/-- A text in which a group uses what the first file declares. -/
def namedSource : Source :=
  ⟨[], {}, "# Guide\n\n## Tone\n- Be warm [^warm]\n\n![](slots.toml)"⟩

/-- A text that embeds the other file. -/
def blankSource : Source :=
  ⟨[], {}, "- Be warm\n\n![](blank.toml)"⟩

/-- The builder makes the deck of the first text again. -/
theorem replay_of_reads_named : ∃ result, Reads namedFiles namedSource result ∧
    result.deck.declarations.map ContextVariable.name = ["user"] ∧
    result.deck.identified.map Sample.text = ["Hi!"] ∧
    result.deck.tools.map Tool.name = ["look"] ∧
    (Builder.performAll { name := "Guide" } result.deck.calls).error = none := by
  have hRead : (read namedFiles {} namedSource.text).toOption.map (fun result =>
      (result.deck.declarations.map ContextVariable.name,
        result.deck.identified.map Sample.text, result.deck.tools.map Tool.name)) =
      some (["user"], ["Hi!"], ["look"]) := by
    decide +kernel
  obtain ⟨result, hResult, hFound⟩ := exists_of_toOption_map hRead
  simp only [Prod.mk.injEq] at hFound
  obtain ⟨hNames, hSamples, hTools⟩ := hFound
  have hReads : Reads namedFiles namedSource result := .text hResult
  refine ⟨result, hReads, hNames, hSamples, hTools,
    (replay_of_reads hReads "Guide").2.2 ⟨fun v hMem => ?_, fun t hMem => ?_⟩⟩
  · have hName := List.mem_map_of_mem (f := ContextVariable.name) hMem
    rw [hNames, List.mem_singleton] at hName
    rw [hName]
    decide
  · have hName := List.mem_map_of_mem (f := Tool.name) hMem
    rw [hTools, List.mem_singleton] at hName
    rw [hName]
    decide

/-- The other text is read, and the builder refuses the variable that it declares. -/
theorem replay_blank : ∃ result, Reads namedFiles blankSource result ∧
    (Builder.performAll { name := "deck" } result.deck.calls).error =
      some (.emptyContextName "Who?") := by
  have hRead : (read namedFiles {} blankSource.text).toOption.map (fun result =>
      (Builder.performAll { name := "deck" } result.deck.calls).error) =
      some (some (.emptyContextName "Who?")) := by
    decide +kernel
  obtain ⟨result, hResult, hFound⟩ := exists_of_toOption_map hRead
  exact ⟨result, .text hResult, hFound⟩

end Document

end Deckwright
