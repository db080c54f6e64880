import Deckwright.Proofs.Appended
import Deckwright.Proofs.OrderedMaps
import Deckwright.Proofs.Redeclarations

/-!
# The context of a graded deck

A grader puts a group with two variables of its own behind the children of a deck, and so moves the
end of the deck. A variable of the deck whose position is larger than the number of the children
stood at the end before, and stands behind the group now (`Deck.trailing`).

* `declarations_append`: the walk over a deck with one more child.
* `allContext_graded`: the variables of a graded deck, those of the grader in between.
* `messages_renderExchange`: the messages of a request for the grade of an exchange.

Main result: `Deck.asksLast_iff`, when the exchange comes behind all that the deck asks for.
-/

namespace Deckwright

/-! ## The walk up to the end of a scope -/

namespace Node

/-- In front of the end it does not matter how far away the end is. -/
theorem declaredAt_congr {declared : List ContextVariable} {total other index : Nat}
    (hTotal : index < total) (hOther : index < other) :
    declaredAt declared total index = declaredAt declared other index := by
  apply List.filter_congr
  intro v _
  rw [Bool.eq_iff_iff, beq_iff_eq, beq_iff_eq]
  omega

theorem declaredAt_eq_filter {total index : Nat} (place : Nat → Prop) [DecidablePred place]
    (h : ∀ position, min position total = index ↔ place position)
    (declared : List ContextVariable) :
    declaredAt declared total index = declared.filter fun v => place v.position := by
  apply List.filter_congr
  intro v _
  rw [Bool.eq_iff_iff, beq_iff_eq, decide_eq_true_eq]
  exact h v.position

end Node

namespace Deck

/-- The declarations in front of the end of the deck. -/
def inner (d : Deck) : List ContextVariable :=
  Node.innerFrom d.context d.children.length 0 d.children

/-- The deck's own variables at its end, be it that their positions are larger still. -/
def ending (d : Deck) : List ContextVariable :=
  d.context.filter fun v => d.children.length ≤ v.position

/-- The deck's own variables right behind its last child. -/
def closing (d : Deck) : List ContextVariable :=
  d.context.filter fun v => v.position = d.children.length

/-- The declarations that stand in front of whatever comes behind the last child. -/
def settled (d : Deck) : List ContextVariable :=
  d.inner ++ d.closing

/-- The deck's own variables whose position is larger than the number of its children. -/
def trailing (d : Deck) : List ContextVariable :=
  d.context.filter fun v => d.children.length < v.position

theorem declarations_eq (d : Deck) :
    d.declarations = d.inner ++ d.ending := by
  have hEnding : declaredAt d.context d.children.length (0 + d.children.length) = d.ending :=
    Node.declaredAt_eq_filter (d.children.length ≤ ·) (fun position => by omega) d.context
  rw [declarations, Node.declarationsFrom_eq, hEnding, inner]

/-- A further child stands in front of the variables that the deck declares too far behind. -/
theorem declarations_append (d : Deck) (node : Node) :
    (d.append node).declarations =
      d.settled ++ node.declarations ++ d.trailing := by
  have hInner : Node.innerFrom d.context (d.children.length + 1) 0 d.children = d.inner :=
    Node.innerFrom_congr fun i _ hUpper => Node.declaredAt_congr (by omega) (by omega)
  have hClosing : declaredAt d.context (d.children.length + 1) (0 + d.children.length) =
      d.closing :=
    Node.declaredAt_eq_filter (· = d.children.length) (fun position => by omega) d.context
  have hTrailing : declaredAt d.context (d.children.length + 1) (0 + d.children.length + 1) =
      d.trailing :=
    Node.declaredAt_eq_filter (d.children.length < ·) (fun position => by omega) d.context
  have hWalk := Node.declarationsFrom_append d.context (d.children.length + 1) 0 d.children node
  rw [Node.declarationsFrom_eq _ _ _ d.children, hInner, hClosing, hTrailing] at hWalk
  show Node.declarationsFrom d.context (d.children ++ [node]).length 0 _ = _
  rw [List.length_append, List.length_singleton]
  exact hWalk

theorem mem_declarations {d : Deck} {v : ContextVariable} :
    v ∈ d.declarations ↔ v ∈ d.settled ∨ v ∈ d.trailing := by
  have hEnd : v ∈ d.ending ↔ v ∈ d.closing ∨ v ∈ d.trailing := by
    simp only [ending, closing, trailing, List.mem_filter, decide_eq_true_eq, ← and_or_left]
    rw [Nat.le_iff_lt_or_eq, or_comm, eq_comm]
  rw [declarations_eq, settled, List.mem_append, List.mem_append, hEnd, or_assoc]

theorem mem_names_declarations {d : Deck} {name : String} :
    name ∈ d.declarations.map ContextVariable.name ↔
      name ∈ d.settled.map ContextVariable.name ∨ name ∈ d.trailing.map ContextVariable.name := by
  simp only [List.mem_map, mem_declarations, or_and_right, exists_or]

/-! ## The variables of a graded deck -/

/-- The variables that come in front of a further child, as the last declarations of their names
have them. -/
def beforeExchange (d : Deck) : List ContextVariable :=
  mergedContext (d.settled ++
    d.trailing.filter (·.name ∈ d.settled.map ContextVariable.name))

/-- The variables that come behind a further child: they are declared too far behind and nowhere
else. -/
def behindExchange (d : Deck) : List ContextVariable :=
  mergedContext (d.trailing.filter (·.name ∉ d.settled.map ContextVariable.name))

/-- A deck that declares neither what the user said nor what the assistant answered. -/
structure Gradable (d : Deck) : Prop where
  user : Grader.userVariable.name ∉ d.declarations.map ContextVariable.name
  response : Grader.responseVariable.name ∉ d.declarations.map ContextVariable.name

variable {d : Deck}

theorem Gradable.name_ne (h : d.Gradable) {v : ContextVariable}
    (hMem : v.name ∈ d.declarations.map ContextVariable.name) :
    v.name ∉ [Grader.userVariable, Grader.responseVariable].map ContextVariable.name := by
  intro hGrader
  simp only [List.map_cons, List.map_nil, List.mem_cons, List.not_mem_nil, or_false] at hGrader
  rcases hGrader with hUser | hResponse
  · exact h.user (hUser ▸ hMem)
  · exact h.response (hResponse ▸ hMem)

theorem declarations_group (layout : Layout) :
    (Grader.group layout).declarations = [Grader.userVariable, Grader.responseVariable] := by
  cases layout <;> rfl

/-- The grader's variables part those of the deck. -/
theorem allContext_graded (h : d.Gradable) :
    d.graded.allContext =
      d.beforeExchange ++ [Grader.userVariable, Grader.responseVariable] ++ d.behindExchange := by
  have hSettled {name : String} (hMem : name ∈ (mergedContext d.settled).map ContextVariable.name) :
      name ∈ d.declarations.map ContextVariable.name :=
    mem_names_declarations.2 (.inl (mem_names_mergedContext.1 hMem))
  have hGrader : mergedContext (d.settled ++ [Grader.userVariable, Grader.responseVariable]) =
      mergedContext d.settled ++ [Grader.userVariable, Grader.responseVariable] := by
    rw [mergedContext_append, List.foldl_cons, List.foldl_cons, List.foldl_nil,
      Node.mergeContext_of_new fun hMem => h.user (hSettled hMem), Node.mergeContext_of_new,
      List.append_assoc]
    · rfl
    · rw [List.map_append, List.mem_append, not_or]
      exact ⟨fun hMem => h.response (hSettled hMem), by decide⟩
  have hTrailing : ∀ v ∈ d.trailing,
      v.name ∉ [Grader.userVariable, Grader.responseVariable].map ContextVariable.name :=
    fun v hMem => h.name_ne (mem_names_declarations.2 (.inr (List.mem_map_of_mem hMem)))
  have hBetween := @Overwrites.foldl_mergeBy_between _ _ _ _ _ ContextVariable.overwrites
    (mergedContext d.settled) [Grader.userVariable, Grader.responseVariable] [] d.trailing
    hTrailing
  simp only [mem_names_mergedContext, List.append_nil, ← mergeContext_eq] at hBetween
  calc d.graded.allContext
      = mergedContext (d.settled ++ [Grader.userVariable, Grader.responseVariable] ++
          d.trailing) := by
        rw [← declarations_group d.layout, ← declarations_append]
        rfl
    _ = d.trailing.foldl mergeContext
          (mergedContext d.settled ++ [Grader.userVariable, Grader.responseVariable]) := by
        rw [mergedContext_append, hGrader]
    _ = d.beforeExchange ++ [Grader.userVariable, Grader.responseVariable] ++ d.behindExchange := by
        rw [hBetween, beforeExchange, mergedContext_append]
        rfl

end Deck

/-! ## Messages -/

/-- The messages of variables that have a value. -/
def questions (values : Json.Fields) (declared : List ContextVariable) : List Message :=
  declared.flatMap (ContextVariable.messages values)

/-- The messages of an exchange: what the user said and what the assistant answered. -/
def Grader.exchange (user response : String) : List Message :=
  [.assistant userVariable.question, .user user, .assistant responseVariable.question,
    .user response]

/-- The values with those of an exchange. -/
def Grader.values (values : Json.Fields) (user response : String) : Json.Fields :=
  (values.insert userVariable.name (.string user)).insert responseVariable.name (.string response)

theorem get?_grader_values (values : Json.Fields) (user response name : String) :
    (Grader.values values user response).get? name =
      if name = Grader.responseVariable.name then some (.string response)
      else if name = Grader.userVariable.name then some (.string user)
      else values.get? name := by
  rw [Grader.values, Ordered.get?_insert, Ordered.get?_insert]

/-- The values of an exchange do not show in the messages of other variables. -/
theorem questions_grader_values (values : Json.Fields) (user response : String)
    {declared : List ContextVariable}
    (h : ∀ v ∈ declared, v.name ∉
      [Grader.userVariable, Grader.responseVariable].map ContextVariable.name) :
    questions (Grader.values values user response) declared = questions values declared := by
  apply List.flatMap_congr
  intro v hMem
  have hName := h v hMem
  simp only [List.map_cons, List.map_nil, List.mem_cons, List.not_mem_nil, or_false, not_or]
    at hName
  rw [ContextVariable.messages, get?_grader_values, if_neg hName.2, if_neg hName.1]
  rfl

theorem questions_exchange (values : Json.Fields) (user response : String) :
    questions (Grader.values values user response)
      [Grader.userVariable, Grader.responseVariable] = Grader.exchange user response := by
  have hUser : (Grader.values values user response).get? Grader.userVariable.name =
      some (.string user) := by
    rw [get?_grader_values, if_neg (by decide), if_pos rfl]
  have hResponse : (Grader.values values user response).get? Grader.responseVariable.name =
      some (.string response) := by
    rw [get?_grader_values, if_pos rfl]
  simp only [questions, List.flatMap_cons, List.flatMap_nil, ContextVariable.messages, hUser,
    hResponse]
  rfl

theorem questions_append (values : Json.Fields) (declared more : List ContextVariable) :
    questions values (declared ++ more) = questions values declared ++ questions values more :=
  List.flatMap_append

theorem questions_eq_nil {values : Json.Fields} {declared : List ContextVariable}
    (h : ∀ v ∈ declared, values.get? v.name = none) : questions values declared = [] := by
  rw [questions, List.flatMap_eq_nil_iff]
  intro v hMem
  rw [ContextVariable.messages, h v hMem]

/-- Where one variable alone has a value, it is asked for once. -/
theorem questions_singleton {declared : List ContextVariable}
    (hNodup : (declared.map ContextVariable.name).Nodup) {name : String} (text : String)
    (hMem : name ∈ declared.map ContextVariable.name) :
    ∃ question, questions [(name, .string text)] declared =
      [.assistant question, .user text] := by
  obtain ⟨before, v, after, rfl, rfl, hBefore, hAfter⟩ := exists_only hNodup hMem
  have hOther {w : ContextVariable} (hName : w.name ≠ v.name) :
      Ordered.get? w.name [(v.name, Json.string text)] = none := by
    rw [Ordered.get?_cons, if_neg hName, Ordered.get?_nil]
  have hFront : questions [(v.name, .string text)] before = [] := questions_eq_nil
    fun w hIn => hOther fun hName => hBefore (List.mem_map.2 ⟨w, hIn, hName⟩)
  have hBack : questions [(v.name, .string text)] after = [] := questions_eq_nil
    fun w hIn => hOther fun hName => hAfter (List.mem_map.2 ⟨w, hIn, hName⟩)
  have hHere : v.messages [(v.name, .string text)] = [.assistant v.question, .user text] := by
    rw [ContextVariable.messages, Ordered.get?_cons, if_pos rfl]
    rfl
  refine ⟨v.question, ?_⟩
  rw [questions_append, hFront, List.nil_append, questions, List.flatMap_cons, hHere,
    ← questions, hBack, List.append_nil]

theorem nodup_names_mergedContext (declared : List ContextVariable) :
    ((mergedContext declared).map ContextVariable.name).Nodup := by
  rw [mergedContext, names_foldl_mergeContext]
  exact nodup_foldl_addKey List.nodup_nil _

/-! ## Exchanges -/

namespace Deck

variable {d : Deck}

/-- Whatever is asked for, the exchange comes behind all that the deck itself asks for. -/
def AsksLast (d : Deck) : Prop :=
  ∀ options user response, options.overrides.messages = none →
    (d.renderExchange user response options).messages =
      .system (d.graded.systemText options.renderedSamples) ::
        (d.contextMessages options.context ++ Grader.exchange user response)

/-- The messages of an exchange, with those of the deck's variables around it. -/
theorem messages_renderExchange (h : d.Gradable) {options : RenderOptions}
    (hMessages : options.overrides.messages = none) (user response : String) :
    (d.renderExchange user response options).messages =
      .system (d.graded.systemText options.renderedSamples) ::
        (questions options.context d.beforeExchange ++ Grader.exchange user response ++
          questions options.context d.behindExchange) := by
  have hRender : (d.renderExchange user response options).messages =
      .system (d.graded.systemText options.renderedSamples) ::
        questions (Grader.values options.context user response) d.graded.allContext := by
    show options.overrides.messages.getD _ = _
    rw [hMessages]
    rfl
  have hFront : ∀ v ∈ d.beforeExchange, v.name ∉
      [Grader.userVariable, Grader.responseVariable].map ContextVariable.name := by
    intro v hMem
    have hName := mem_names_mergedContext.1 (List.mem_map_of_mem hMem)
    rw [List.map_append, List.mem_append] at hName
    exact h.name_ne (mem_names_declarations.2
      (hName.imp_right fun hLate => List.map_subset _ (List.filter_subset_self _) hLate))
  have hBack : ∀ v ∈ d.behindExchange, v.name ∉
      [Grader.userVariable, Grader.responseVariable].map ContextVariable.name := by
    intro v hMem
    have hName := mem_names_mergedContext.1 (List.mem_map_of_mem hMem)
    exact h.name_ne (mem_names_declarations.2
      (.inr (List.map_subset _ (List.filter_subset_self _) hName)))
  rw [hRender, allContext_graded h, questions_append, questions_append, questions_exchange,
    questions_grader_values _ _ _ hFront, questions_grader_values _ _ _ hBack]

theorem asksLast_of_eq (h : d.Gradable) (hFront : d.beforeExchange = d.allContext)
    (hBack : d.behindExchange = []) : d.AsksLast := by
  intro options user response hMessages
  rw [messages_renderExchange h hMessages, hFront, hBack]
  exact congrArg _ (List.append_nil _)

/-- Where no position is too large, the exchange comes last. -/
theorem asksLast_of_positions (h : d.Gradable)
    (hPositions : ∀ v ∈ d.context, v.position ≤ d.children.length) : d.AsksLast := by
  have hTrailing : d.trailing = [] := by
    rw [trailing, List.filter_eq_nil_iff]
    intro v hMem
    have := hPositions v hMem
    rw [decide_eq_true_eq]
    omega
  have hClosing : d.ending = d.closing := by
    apply List.filter_congr
    intro v hMem
    have := hPositions v hMem
    rw [decide_eq_decide]
    omega
  have hDeclared : d.declarations = d.settled := by
    rw [declarations_eq, hClosing, settled]
  apply asksLast_of_eq h
  · rw [beforeExchange, hTrailing, List.filter_nil, List.append_nil, allContext, hDeclared]
    rfl
  · rw [behindExchange, hTrailing]
    rfl

theorem mem_names_inner {node : Node} (hNode : node ∈ d.children) {name : String}
    (h : node.Declares name) : name ∈ d.inner.map ContextVariable.name := by
  obtain ⟨v, hMem, hName⟩ := List.mem_map.1 h
  exact List.mem_map.2
    ⟨v, (Node.mem_innerFrom (by omega)).2 (.inr ⟨node, hNode, hMem⟩), hName⟩

/-- The name of a variable that is declared too far behind is declared in front of that only by a
child. -/
theorem mem_names_settled_iff (hNodup : (d.context.map ContextVariable.name).Nodup)
    {v : ContextVariable} (hMem : v ∈ d.trailing) :
    v.name ∈ d.settled.map ContextVariable.name ↔ ∃ node ∈ d.children, node.Declares v.name := by
  obtain ⟨hOwn, hLate⟩ := List.mem_filter.1 hMem
  rw [decide_eq_true_eq] at hLate
  constructor
  · intro hName
    obtain ⟨w, hSettled, hSame⟩ := List.mem_map.1 hName
    -- another variable of the deck itself has another name
    have hOther (hIn : w ∈ d.context) : w.position = v.position :=
      congrArg ContextVariable.position (List.inj_on_of_nodup_map hNodup hIn hOwn hSame)
    rcases List.mem_append.1 hSettled with hInner | hClosing
    · rcases (Node.mem_innerFrom (by omega)).1 hInner with ⟨hIn, -, hUpper⟩ | ⟨node, hNode, hIn⟩
      · have := hOther hIn
        omega
      · exact ⟨node, hNode, List.mem_map.2 ⟨w, hIn, hSame⟩⟩
    · obtain ⟨hIn, hPosition⟩ := List.mem_filter.1 hClosing
      rw [decide_eq_true_eq] at hPosition
      have := hOther hIn
      omega
  · rintro ⟨node, hNode, hDeclares⟩
    rw [settled, List.map_append]
    exact List.mem_append_left _ (mem_names_inner hNode hDeclares)

/-- Variables that are declared too far behind may be merged last if children declare their
names. -/
theorem allContext_eq_merged (hNodup : (d.context.map ContextVariable.name).Nodup)
    (hChildren : ∀ v ∈ d.trailing, ∃ node ∈ d.children, node.Declares v.name) :
    d.allContext = mergedContext (d.settled ++ d.trailing) := by
  have hEnding : (d.ending.map ContextVariable.name).Nodup :=
    hNodup.sublist (List.filter_sublist.map _)
  have hTrailing : d.ending.filter (fun v => d.children.length < v.position) = d.trailing := by
    rw [ending, List.filter_filter]
    apply List.filter_congr
    intro v _
    rw [Bool.eq_iff_iff]
    simp only [Bool.and_eq_true, decide_eq_true_eq]
    omega
  have hClosing : d.ending.filter (fun v => !decide (d.children.length < v.position)) =
      d.closing := by
    rw [ending, List.filter_filter]
    apply List.filter_congr
    intro v _
    rw [Bool.eq_iff_iff]
    simp only [Bool.and_eq_true, Bool.not_eq_true', decide_eq_false_iff_not, decide_eq_true_eq]
    omega
  have hKnown : ∀ v ∈ d.ending, decide (d.children.length < v.position) →
      v.name ∈ (mergedContext d.inner).map ContextVariable.name := by
    intro v hMem hLate
    have hIn : v ∈ d.trailing := hTrailing ▸ List.mem_filter.2 ⟨hMem, hLate⟩
    obtain ⟨node, hNode, hDeclares⟩ := hChildren v hIn
    exact mem_names_mergedContext.2 (mem_names_inner hNode hDeclares)
  have hLater := ContextVariable.overwrites.foldl_mergeBy_filter hEnding hKnown
  rw [hTrailing, hClosing, ← mergeContext_eq] at hLater
  calc d.allContext
      = d.ending.foldl mergeContext (mergedContext d.inner) := by
        rw [allContext, declarations_eq]
        exact mergedContext_append d.inner d.ending
    _ = d.trailing.foldl mergeContext (d.closing.foldl mergeContext (mergedContext d.inner)) :=
        hLater
    _ = mergedContext (d.settled ++ d.trailing) := by
        rw [mergedContext_append, settled, mergedContext_append]

/-- Where children declare the names that the deck declares too far behind, the exchange comes
last. -/
theorem asksLast_of_declares (h : d.Gradable)
    (hNodup : (d.context.map ContextVariable.name).Nodup)
    (hChildren : ∀ v ∈ d.trailing, ∃ node ∈ d.children, node.Declares v.name) : d.AsksLast := by
  have hKnown : ∀ v ∈ d.trailing, v.name ∈ d.settled.map ContextVariable.name := fun v hMem =>
    (mem_names_settled_iff hNodup hMem).2 (hChildren v hMem)
  apply asksLast_of_eq h
  · rw [beforeExchange, List.filter_eq_self.2 fun v hMem => by simpa using hKnown v hMem]
    exact (allContext_eq_merged hNodup hChildren).symm
  · rw [behindExchange, List.filter_eq_nil_iff.2 fun v hMem => by simpa using hKnown v hMem]
    rfl

/-- A variable that is declared too far behind, and nowhere in front of that, is asked for behind
the exchange. -/
theorem not_asksLast (h : d.Gradable) {v : ContextVariable} (hMem : v ∈ d.trailing)
    (hNew : v.name ∉ d.settled.map ContextVariable.name) : ¬ d.AsksLast := by
  intro hLast
  -- an exchange in which only this variable has a value
  have hFront : questions [(v.name, .string "")] d.beforeExchange = [] := by
    apply questions_eq_nil
    intro w hIn
    have hName := mem_names_mergedContext.1 (List.mem_map_of_mem hIn)
    rw [Ordered.get?_cons, if_neg, Ordered.get?_nil]
    intro hSame
    rw [List.map_append, List.mem_append, hSame] at hName
    rcases hName with hSettled | hLate
    · exact hNew hSettled
    · obtain ⟨other, hOther, hOtherName⟩ := List.mem_map.1 hLate
      have hKnown := of_decide_eq_true (List.mem_filter.1 hOther).2
      exact hNew (hOtherName ▸ hKnown)
  have hAll : v.name ∈ d.allContext.map ContextVariable.name :=
    mem_names_mergedContext.2
      (mem_names_declarations.2 (.inr (List.mem_map_of_mem hMem)))
  obtain ⟨question, hQuestions⟩ :=
    questions_singleton (nodup_names_mergedContext d.declarations) "" hAll
  have hMessages := hLast { context := [(v.name, .string "")] } "x" "" rfl
  have hOwn : d.contextMessages [(v.name, .string "")] = [.assistant question, .user ""] :=
    hQuestions
  rw [messages_renderExchange h rfl, hFront, hOwn] at hMessages
  have hSecond := congrArg (fun messages : List Message => messages[2]?) hMessages
  revert hSecond
  simp [Grader.exchange, Message.user]

end Deck

/--
**The exchange behind the context.** In a request for the grade of an exchange the messages of the
exchange stand between those of the variables that the deck declares in front of the group, and
those of variables that it declares too far behind and nowhere else. So they come last if no
position is larger than the number of children; in a deck that itself declares no name twice they do
exactly if children declare the names of all variables with a larger position.
-/
theorem Deck.asksLast_iff (d : Deck) (h : d.Gradable) :
    (∀ options user response, options.overrides.messages = none →
      (d.renderExchange user response options).messages =
        .system (d.graded.systemText options.renderedSamples) ::
          (questions options.context d.beforeExchange ++ Grader.exchange user response ++
            questions options.context d.behindExchange)) ∧
    ((∀ v ∈ d.context, v.position ≤ d.children.length) → d.AsksLast) ∧
    ((d.context.map ContextVariable.name).Nodup →
      (d.AsksLast ↔ ∀ v ∈ d.context, d.children.length < v.position →
        ∃ node ∈ d.children, node.Declares v.name)) := by
  refine ⟨fun options user response hMessages => messages_renderExchange h hMessages user response,
    asksLast_of_positions h, fun hNodup => ⟨?_, ?_⟩⟩
  · intro hLast v hMem hLate
    have hIn : v ∈ d.trailing := List.mem_filter.2 ⟨hMem, decide_eq_true hLate⟩
    rw [← mem_names_settled_iff hNodup hIn]
    by_contra hNew
    exact not_asksLast h hIn hNew hLast
  · intro hChildren
    refine asksLast_of_declares h hNodup fun v hIn => ?_
    obtain ⟨hMem, hLate⟩ := List.mem_filter.1 hIn
    exact hChildren v hMem (of_decide_eq_true hLate)

/-- A deck with a variable that it declares too far behind and that a group of it declares, too. -/
def accountDeck : Deck :=
  { name := "support"
    children := [.leaf "Be patient" [], .group { name := "Account", context :=
      [{ name := "plan", kind := .string, question := "Plan?" }] } []]
    context := [{ name := "product", kind := .string, question := "Which product?", position := 1 },
      { name := "plan", kind := .string, question := "Which plan?", position := 7 }] }

/-- The question of the last declaration is asked in the place of the group. -/
theorem asksLast_iff_account :
    accountDeck.Gradable ∧ (accountDeck.context.map ContextVariable.name).Nodup ∧
    accountDeck.AsksLast ∧
    (accountDeck.renderExchange "It broke" "Sorry"
        { context := [("plan", .string "pro"), ("product", .string "Widget")] }).messages.tail =
      [.assistant "Which product?", .user "Widget", .assistant "Which plan?", .user "pro"] ++
        Grader.exchange "It broke" "Sorry" := by
  have hGradable : accountDeck.Gradable := ⟨by decide +kernel, by decide +kernel⟩
  have hNodup : (accountDeck.context.map ContextVariable.name).Nodup := by decide
  obtain ⟨-, -, hIff⟩ := accountDeck.asksLast_iff hGradable
  refine ⟨hGradable, hNodup, (hIff hNodup).2 ?_, by decide +kernel⟩
  intro v hMem hLate
  refine ⟨accountDeck.children[1], List.getElem_mem _, ?_⟩
  simp only [accountDeck, List.mem_cons, List.not_mem_nil, or_false] at hMem
  rcases hMem with rfl | rfl
  · exact absurd hLate (by decide)
  · show "plan" ∈ accountDeck.children[1].declarations.map ContextVariable.name
    decide +kernel

/-- A deck with a variable that it declares too far behind. -/
def trailingDeck : Deck :=
  { name := "support"
    children := [.leaf "Be patient" []]
    context :=
      [{ name := "product", kind := .string, question := "Which product?", position := 2 }] }

/-- The deck's variable comes behind the exchange. -/
theorem not_asksLast_trailing :
    trailingDeck.Gradable ∧
    (trailingDeck.renderExchange "It broke" "Sorry"
        { context := [("product", .string "Widget")] }).messages.tail =
      Grader.exchange "It broke" "Sorry" ++ [.assistant "Which product?", .user "Widget"] ∧
    ¬ trailingDeck.AsksLast := by
  have hMessages : (trailingDeck.renderExchange "It broke" "Sorry"
        { context := [("product", .string "Widget")] }).messages.tail =
      Grader.exchange "It broke" "Sorry" ++ [.assistant "Which product?", .user "Widget"] := by
    decide +kernel
  refine ⟨⟨by decide +kernel, by decide +kernel⟩, hMessages, fun hLast => ?_⟩
  rw [hLast { context := [("product", .string "Widget")] } "It broke" "Sorry" rfl] at hMessages
  revert hMessages
  decide +kernel

end Deckwright
