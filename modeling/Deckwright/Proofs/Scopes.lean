import Deckwright.Proofs.Growth
import Deckwright.Proofs.Merging

/-!
# The declarations of a growing draft

`Draft.declared` is the walk over the scopes of a draft in the state it has: the declarations of
the deck and of its closed groups, and behind them those of the open groups from the outermost
in. The positions of the variables never exceed the number of children that their scope has
(`PositionsOk`), so whatever is added comes last in that walk.

* `declarationsFrom_eq`, `innerFrom_congr`: the walk over one scope, up to its end and at its end.
* `declared_push`: a node puts its own declarations behind everything else.
* `declared_closeTo`, `declared_addHeading`: headings change nothing in the walk.
* `declared_declare`: variables with new names come last, in their order.

`Draft.grouped` is the same walk without the deck's own variables. The two together tell which
variables an embedded draft hands to the document that embeds it, and in which order.
-/

namespace Deckwright

/-- A variable without its position. -/
def ContextVariable.bare (v : ContextVariable) : ContextVariable :=
  v.atPosition 0

/-- The declarations of a scope and of the groups in it. -/
def Node.scope (declared : List ContextVariable) (children : List Node) : List ContextVariable :=
  Node.declarationsFrom declared children.length 0 children

/-- No variable has a position behind the last child. -/
def Node.PositionsOk (declared : List ContextVariable) (children : List Node) : Prop :=
  ∀ v ∈ declared, v.position ≤ children.length

namespace Node

theorem PositionsOk.nil (children : List Node) : PositionsOk [] children := by
  intro v hMem
  cases hMem

/-- A variable is declared behind the last child. -/
theorem PositionsOk.declare {declared : List ContextVariable} {children : List Node}
    (h : PositionsOk declared children) (v : ContextVariable) :
    PositionsOk (declared ++ [v.atPosition children.length]) children := by
  intro w hMem
  rcases List.mem_append.1 hMem with hOld | hLast
  · exact h w hOld
  · rw [List.mem_singleton.1 hLast]
    exact Nat.le_refl _

theorem PositionsOk.append {declared : List ContextVariable} {children : List Node}
    (h : PositionsOk declared children) (more : List Node) :
    PositionsOk declared (children ++ more) := by
  intro v hMem
  rw [List.length_append]
  exact Nat.le_add_right_of_le (h v hMem)

theorem declarationsFrom_append (declared : List ContextVariable) (total index : Nat)
    (nodes : List Node) (node : Node) :
    declarationsFrom declared total index (nodes ++ [node]) =
      declarationsFrom declared total index nodes ++ node.declarations ++
        declaredAt declared total (index + nodes.length + 1) := by
  induction nodes generalizing index with
  | nil => simp [declarationsFrom]
  | cons first rest ih =>
      simp only [List.cons_append, declarationsFrom, ih, List.length_cons, List.append_assoc]
      rw [show index + 1 + rest.length + 1 = index + (rest.length + 1) + 1 by omega]

theorem declaredAt_append (declared more : List ContextVariable) (total index : Nat) :
    declaredAt (declared ++ more) total index =
      declaredAt declared total index ++ declaredAt more total index :=
  List.filter_append _ _

theorem declaredAt_singleton_of_ne {v : ContextVariable} {total index : Nat}
    (hLe : v.position ≤ total) (h : v.position ≠ index) : declaredAt [v] total index = [] := by
  simp only [declaredAt, List.filter_eq_nil_iff, List.mem_singleton]
  rintro w rfl
  rwa [Nat.min_eq_left hLe, beq_iff_eq]

theorem declaredAt_singleton {v : ContextVariable} {total : Nat} (hLe : v.position ≤ total) :
    declaredAt [v] total v.position = [v] := by
  simp [declaredAt, Nat.min_eq_left hLe]

/-- The declarations of a scope in front of its end, from child `index` on, whose nodes are
given. -/
def innerFrom (declared : List ContextVariable) (total index : Nat) :
    List Node → List ContextVariable
  | [] => []
  | node :: rest =>
    declaredAt declared total index ++ node.declarations ++
      innerFrom declared total (index + 1) rest

/-- A walk ends with the variables that stand at the end of the scope. -/
theorem declarationsFrom_eq (declared : List ContextVariable) (total index : Nat)
    (nodes : List Node) :
    declarationsFrom declared total index nodes =
      innerFrom declared total index nodes ++ declaredAt declared total (index + nodes.length) := by
  induction nodes generalizing index with
  | nil => rfl
  | cons node rest ih =>
      rw [declarationsFrom, ih, innerFrom, List.length_cons, ← List.append_assoc,
        show index + 1 + rest.length = index + (rest.length + 1) by omega]

/-- In front of the end a walk looks at the variables only index by index. -/
theorem innerFrom_congr {declared others : List ContextVariable} {total other index : Nat}
    {nodes : List Node}
    (h : ∀ i, index ≤ i → i < index + nodes.length →
      declaredAt declared total i = declaredAt others other i) :
    innerFrom declared total index nodes = innerFrom others other index nodes := by
  induction nodes generalizing index with
  | nil => rfl
  | cons node rest ih =>
      rw [List.length_cons] at h
      have hHere := h index (Nat.le_refl _) (by omega)
      have hRest := @ih (index + 1) fun i hLower hUpper => h i (by omega) (by omega)
      rw [innerFrom, innerFrom, hHere, hRest]

/-- A walk looks at the variables only index by index, from where it is up to the end. -/
theorem declarationsFrom_congr {declared others : List ContextVariable} {total other index : Nat}
    {nodes : List Node}
    (h : ∀ i, index ≤ i → i ≤ index + nodes.length →
      declaredAt declared total i = declaredAt others other i) :
    declarationsFrom declared total index nodes = declarationsFrom others other index nodes := by
  have hInner : innerFrom declared total index nodes = innerFrom others other index nodes :=
    innerFrom_congr fun i hLower hUpper => h i hLower (Nat.le_of_lt hUpper)
  rw [declarationsFrom_eq, declarationsFrom_eq, hInner,
    h (index + nodes.length) (Nat.le_add_right _ _) (Nat.le_refl _)]

theorem mem_innerFrom {declared : List ContextVariable} {total index : Nat} {nodes : List Node}
    (hTotal : index + nodes.length ≤ total) {v : ContextVariable} :
    v ∈ innerFrom declared total index nodes ↔
      (v ∈ declared ∧ index ≤ v.position ∧ v.position < index + nodes.length) ∨
        ∃ node ∈ nodes, v ∈ node.declarations := by
  induction nodes generalizing index with
  | nil => simp [innerFrom]
  | cons node rest ih =>
      rw [List.length_cons] at hTotal
      have hHere : v ∈ declaredAt declared total index ↔ v ∈ declared ∧ v.position = index := by
        rw [declaredAt, List.mem_filter, beq_iff_eq]
        constructor
        · rintro ⟨hMem, hPosition⟩
          exact ⟨hMem, by omega⟩
        · rintro ⟨hMem, hPosition⟩
          exact ⟨hMem, by omega⟩
      rw [innerFrom, List.mem_append, List.mem_append, hHere, @ih (index + 1) (by omega),
        List.exists_mem_cons_iff, List.length_cons]
      constructor
      · rintro ((⟨hMem, hPosition⟩ | hNode) | ⟨hMem, hLower, hUpper⟩ | hRest)
        · exact .inl ⟨hMem, by omega, by omega⟩
        · exact .inr (.inl hNode)
        · exact .inl ⟨hMem, by omega, by omega⟩
        · exact .inr (.inr hRest)
      · rintro (⟨hMem, hLower, hUpper⟩ | hNode | hRest)
        · by_cases hPosition : v.position = index
          · exact .inl (.inl ⟨hMem, hPosition⟩)
          · exact .inr (.inl ⟨hMem, by omega, by omega⟩)
        · exact .inl (.inr hNode)
        · exact .inr (.inr hRest)

/-- A child behind all variables of a scope puts its declarations last. -/
theorem scope_append_singleton {declared : List ContextVariable} {children : List Node}
    (h : PositionsOk declared children) (node : Node) :
    scope declared (children ++ [node]) = scope declared children ++ node.declarations := by
  have hBehind : declaredAt declared (children.length + 1) (0 + children.length + 1) = [] := by
    simp only [declaredAt, List.filter_eq_nil_iff]
    intro v hMem
    have := h v hMem
    simp only [beq_iff_eq]
    omega
  have hSame : ∀ i, 0 ≤ i → i ≤ 0 + children.length →
      declaredAt declared (children.length + 1) i = declaredAt declared children.length i := by
    intro i _ hUpper
    simp only [declaredAt]
    apply List.filter_congr
    intro v hMem
    have := h v hMem
    rw [Nat.min_eq_left this, Nat.min_eq_left (by omega)]
  simp only [scope, List.length_append, List.length_singleton]
  rw [declarationsFrom_append, hBehind, List.append_nil, declarationsFrom_congr hSame]

theorem scope_append {declared : List ContextVariable} {children : List Node}
    (h : PositionsOk declared children) (more : List Node) :
    scope declared (children ++ more) =
      scope declared children ++ more.flatMap Node.declarations := by
  induction more generalizing children with
  | nil => simp
  | cons node rest ih =>
      have hRest := ih (h.append [node])
      rw [List.append_assoc, List.singleton_append] at hRest
      rw [hRest, scope_append_singleton h, List.flatMap_cons, List.append_assoc]

/-- A variable that is declared behind the last child comes last. -/
theorem scope_declare {declared : List ContextVariable} {children : List Node}
    {v : ContextVariable} (h : v.position = children.length) :
    scope (declared ++ [v]) children = scope declared children ++ [v] := by
  have hInner : innerFrom (declared ++ [v]) children.length 0 children =
      innerFrom declared children.length 0 children := by
    apply innerFrom_congr
    intro i _ hUpper
    rw [declaredAt_append, declaredAt_singleton_of_ne (Nat.le_of_eq h) (by omega),
      List.append_nil]
  have hEnd : declaredAt (declared ++ [v]) children.length (0 + children.length) =
      declaredAt declared children.length (0 + children.length) ++ [v] := by
    rw [declaredAt_append, Nat.zero_add, ← h, declaredAt_singleton (Nat.le_refl _)]
  rw [scope, scope, declarationsFrom_eq, declarationsFrom_eq, hInner, hEnd, List.append_assoc]

theorem mem_scope {declared : List ContextVariable} {children : List Node} {v : ContextVariable}
    (h : v ∈ declared) : v ∈ scope declared children := by
  rw [scope, declarationsFrom_eq, List.mem_append]
  by_cases hInner : v.position < children.length
  · exact .inl ((mem_innerFrom (by omega)).2 (.inl ⟨h, Nat.zero_le _, by omega⟩))
  · refine .inr (List.mem_filter.2 ⟨h, ?_⟩)
    rw [beq_iff_eq]
    omega

/-- Merging a variable of a new name appends it. -/
theorem mergeContext_of_new {declared : List ContextVariable} {v : ContextVariable}
    (h : v.name ∉ declared.map ContextVariable.name) :
    mergeContext declared v = declared ++ [v] := by
  rw [mergeContext_eq]
  exact mergeBy_of_new h

end Node

namespace Document

/-! ## Open groups -/

namespace OpenGroup

/-- The declarations in the scope of an open group. -/
def scope (group : OpenGroup) : List ContextVariable :=
  Node.scope group.header.context group.children

/-- The declarations of the open groups, from the outermost in. -/
def declared : List OpenGroup → List ContextVariable
  | [] => []
  | group :: outer => declared outer ++ group.scope

/-- No variable of the group has a position behind its last child. -/
def PositionsOk (group : OpenGroup) : Prop :=
  Node.PositionsOk group.header.context group.children

theorem declared_closeGroups (level : UInt8) (pending : List Node) {opened : List OpenGroup}
    (h : ∀ group ∈ opened, group.PositionsOk) :
    (closeGroups level pending opened).1.flatMap Node.declarations ++
        declared (closeGroups level pending opened).2 =
      declared opened ++ pending.flatMap Node.declarations := by
  induction opened generalizing pending with
  | nil => simp [closeGroups, declared]
  | cons group outer ih =>
      have hGroup := h group List.mem_cons_self
      have hOuter := fun other hMem => h other (List.mem_cons_of_mem group hMem)
      simp only [closeGroups]
      split
      · rw [ih _ hOuter, List.flatMap_singleton, declared, List.append_assoc]
        congr 1
        exact Node.scope_append hGroup pending
      · rw [List.flatMap_nil, List.nil_append, declared, declared, List.append_assoc]
        congr 1
        exact Node.scope_append hGroup pending

theorem positionsOk_closeGroups (level : UInt8) (pending : List Node) {opened : List OpenGroup}
    (h : ∀ group ∈ opened, group.PositionsOk) :
    ∀ group ∈ (closeGroups level pending opened).2, group.PositionsOk := by
  induction opened generalizing pending with
  | nil => simp [closeGroups]
  | cons group outer ih =>
      have hOuter := fun other hMem => h other (List.mem_cons_of_mem group hMem)
      simp only [closeGroups]
      split
      · exact ih _ hOuter
      · intro other hMem
        rcases List.mem_cons.1 hMem with rfl | hMem
        · exact Node.PositionsOk.append (h group List.mem_cons_self) pending
        · exact hOuter other hMem

end OpenGroup

/-! ## Drafts -/

namespace Draft

/-- No variable of a draft has a position behind the last child of its scope. -/
structure PositionsOk (draft : Draft) : Prop where
  root : Node.PositionsOk draft.context draft.root
  opened : ∀ group ∈ draft.opened, group.PositionsOk

/-- The declarations of a draft in the order of the walk over its scopes. -/
def declared (draft : Draft) : List ContextVariable :=
  Node.scope draft.context draft.root ++ OpenGroup.declared draft.opened

/-- The declarations inside the groups of a draft, closed or open. -/
def grouped (draft : Draft) : List ContextVariable :=
  draft.root.flatMap Node.declarations ++ OpenGroup.declared draft.opened

theorem positionsOk_empty : PositionsOk {} :=
  ⟨Node.PositionsOk.nil [], by simp⟩

/-! ### Nodes and headings -/

variable {draft : Draft}

theorem PositionsOk.push (h : draft.PositionsOk) (node : Node) :
    (draft.push node).PositionsOk := by
  unfold Draft.push
  split
  · exact ⟨h.root.append [node], h.opened⟩
  · rename_i group outer hOpened
    refine ⟨h.root, fun other hMem => ?_⟩
    rcases List.mem_cons.1 hMem with rfl | hOuter
    · exact Node.PositionsOk.append (h.opened group (hOpened ▸ List.mem_cons_self)) [node]
    · exact h.opened other (hOpened ▸ List.mem_cons_of_mem group hOuter)

theorem declared_push (h : draft.PositionsOk) (node : Node) :
    (draft.push node).declared = draft.declared ++ node.declarations := by
  unfold Draft.push
  split
  · rename_i hOpened
    simp only [declared, hOpened, OpenGroup.declared, List.append_nil]
    exact Node.scope_append_singleton h.root node
  · rename_i group outer hOpened
    have hGroup := h.opened group (hOpened ▸ List.mem_cons_self)
    simp only [declared, hOpened, OpenGroup.declared, OpenGroup.scope,
      Node.scope_append_singleton hGroup, List.append_assoc]

theorem grouped_push (h : draft.PositionsOk) (node : Node) :
    (draft.push node).grouped = draft.grouped ++ node.declarations := by
  unfold Draft.push
  split
  · rename_i hOpened
    simp [grouped, hOpened, OpenGroup.declared]
  · rename_i group outer hOpened
    have hGroup := h.opened group (hOpened ▸ List.mem_cons_self)
    simp only [grouped, hOpened, OpenGroup.declared, OpenGroup.scope,
      Node.scope_append_singleton hGroup, List.append_assoc]

@[simp] theorem context_push (node : Node) : (draft.push node).context = draft.context := by
  unfold Draft.push
  split <;> rfl

theorem PositionsOk.closeTo (h : draft.PositionsOk) (level : UInt8) :
    (draft.closeTo level).PositionsOk :=
  ⟨h.root.append _, OpenGroup.positionsOk_closeGroups level [] h.opened⟩

theorem declared_closeTo (h : draft.PositionsOk) (level : UInt8) :
    (draft.closeTo level).declared = draft.declared := by
  have hGroups := OpenGroup.declared_closeGroups level [] h.opened
  simp only [List.flatMap_nil, List.append_nil] at hGroups
  simp only [declared, Draft.closeTo, Node.scope_append h.root, List.append_assoc, hGroups]

theorem grouped_closeTo (h : draft.PositionsOk) (level : UInt8) :
    (draft.closeTo level).grouped = draft.grouped := by
  have hGroups := OpenGroup.declared_closeGroups level [] h.opened
  simp only [List.flatMap_nil, List.append_nil] at hGroups
  simp only [grouped, Draft.closeTo, List.flatMap_append, List.append_assoc, hGroups]

theorem declarations_titleLead (text : String) : (titleLead text).declarations = [] := rfl

/-- The group that a heading opens declares nothing yet. -/
theorem declared_open (header : Header) (hContext : header.context = []) (opened : List OpenGroup) :
    OpenGroup.declared ({ header } :: opened) = OpenGroup.declared opened := by
  simp [OpenGroup.declared, OpenGroup.scope, Node.scope, Node.declarationsFrom, declaredAt,
    hContext]

theorem PositionsOk.addHeading (h : draft.PositionsOk) (level : UInt8) (text : String) :
    (draft.addHeading level text).PositionsOk := by
  have hNamed : PositionsOk { draft with name := some text } := ⟨h.root, h.opened⟩
  unfold Draft.addHeading
  split
  · dsimp only
    split
    · exact ⟨h.root, h.opened⟩
    · exact (hNamed.closeTo 1).push _
  · refine ⟨(h.closeTo level).root, fun group hMem => ?_⟩
    rcases List.mem_cons.1 hMem with rfl | hOuter
    · exact Node.PositionsOk.nil []
    · exact (h.closeTo level).opened group hOuter

theorem declared_addHeading (h : draft.PositionsOk) (level : UInt8) (text : String) :
    (draft.addHeading level text).declared = draft.declared := by
  have hNamed : PositionsOk { draft with name := some text } := ⟨h.root, h.opened⟩
  unfold Draft.addHeading
  split
  · dsimp only
    split
    · rfl
    · rw [declared_push (hNamed.closeTo 1), declarations_titleLead, List.append_nil,
        declared_closeTo hNamed]
      rfl
  · rw [← declared_closeTo h level]
    simp only [declared, declared_open]

theorem grouped_addHeading (h : draft.PositionsOk) (level : UInt8) (text : String) :
    (draft.addHeading level text).grouped = draft.grouped := by
  have hNamed : PositionsOk { draft with name := some text } := ⟨h.root, h.opened⟩
  unfold Draft.addHeading
  split
  · dsimp only
    split
    · rfl
    · rw [grouped_push (hNamed.closeTo 1), declarations_titleLead, List.append_nil,
        grouped_closeTo hNamed]
      rfl
  · rw [← grouped_closeTo h level]
    simp only [grouped, declared_open]

@[simp] theorem context_addHeading (level : UInt8) (text : String) :
    (draft.addHeading level text).context = draft.context := by
  unfold Draft.addHeading
  split
  · dsimp only
    split
    · rfl
    · rw [context_push]
      rfl
  · rfl

theorem PositionsOk.pushAll (h : draft.PositionsOk) (nodes : List Node) :
    (draft.pushAll nodes).PositionsOk := by
  induction nodes generalizing draft with
  | nil => exact h
  | cons node rest ih => exact ih (h.push node)

theorem declared_pushAll (h : draft.PositionsOk) (nodes : List Node) :
    (draft.pushAll nodes).declared = draft.declared ++ nodes.flatMap Node.declarations := by
  induction nodes generalizing draft with
  | nil => simp [Draft.pushAll]
  | cons node rest ih =>
      have hRest := ih (h.push node)
      rw [declared_push h, List.append_assoc] at hRest
      exact hRest

theorem grouped_pushAll (h : draft.PositionsOk) (nodes : List Node) :
    (draft.pushAll nodes).grouped = draft.grouped ++ nodes.flatMap Node.declarations := by
  induction nodes generalizing draft with
  | nil => simp [Draft.pushAll]
  | cons node rest ih =>
      have hRest := ih (h.push node)
      rw [grouped_push h, List.append_assoc] at hRest
      exact hRest

@[simp] theorem context_pushAll (nodes : List Node) :
    (draft.pushAll nodes).context = draft.context := by
  induction nodes generalizing draft with
  | nil => rfl
  | cons node rest ih => exact ih.trans (context_push node)

/-! ### Declarations -/

/-- A variable of a new name is new in the scope that it is declared in. -/
theorem mergeContext_of_fresh {declared : List ContextVariable} {children : List Node}
    {v : ContextVariable} (hNew : v.name ∉ (Node.scope declared children).map ContextVariable.name)
    (position : Nat) :
    mergeContext declared (v.atPosition position) = declared ++ [v.atPosition position] := by
  apply Node.mergeContext_of_new
  intro hMem
  obtain ⟨w, hDeclared, hName⟩ := List.mem_map.1 hMem
  exact hNew (List.mem_map.2 ⟨w, Node.mem_scope hDeclared, hName⟩)

/-- What a new variable does to the scopes of a draft. -/
structure AddsContext (draft : Draft) (v : ContextVariable) (next : Draft) : Prop where
  positions : next.PositionsOk
  declared : ∃ position, next.declared = draft.declared ++ [v.atPosition position]
  context : ∃ position, next.context =
    draft.context ++ if draft.opened = [] then [v.atPosition position] else []
  grouped : ∃ position, next.grouped =
    draft.grouped ++ if draft.opened = [] then [] else [v.atPosition position]

theorem addsContext (h : draft.PositionsOk) {v : ContextVariable}
    (hNew : v.name ∉ draft.declared.map ContextVariable.name) :
    AddsContext draft v (draft.addContext v) := by
  cases hOpened : draft.opened with
  | nil =>
      have hScope : draft.declared = Node.scope draft.context draft.root := by
        simp [declared, hOpened, OpenGroup.declared]
      have hMerge := mergeContext_of_fresh (hScope ▸ hNew) draft.root.length
      have hNext : draft.addContext v =
          { draft with context := draft.context ++ [v.atPosition draft.root.length] } := by
        simp only [Draft.addContext, hOpened, hMerge]
      rw [hNext]
      refine
        { positions := ⟨h.root.declare v, h.opened⟩
          declared := ⟨draft.root.length, ?_⟩
          context := ⟨draft.root.length, by simp [hOpened]⟩
          grouped := ⟨0, by simp [grouped, hOpened]⟩ }
      rw [hScope, ← Node.scope_declare (by rfl)]
      simp [declared, hOpened, OpenGroup.declared]
  | cons group outer =>
      have hHere : draft.declared =
          Node.scope draft.context draft.root ++ (OpenGroup.declared outer ++ group.scope) := by
        simp [declared, hOpened, OpenGroup.declared]
      have hGroup := h.opened group (hOpened ▸ List.mem_cons_self)
      have hFresh : v.name ∉ group.scope.map ContextVariable.name := by
        intro hMem
        apply hNew
        rw [hHere, List.map_append, List.map_append]
        exact List.mem_append_right _ (List.mem_append_right _ hMem)
      have hMerge := mergeContext_of_fresh hFresh group.children.length
      have hScope := @Node.scope_declare group.header.context group.children
        (v.atPosition group.children.length) rfl
      unfold Draft.addContext
      simp only [hOpened, hMerge]
      refine
        { positions := ⟨h.root, ?_⟩
          declared := ⟨group.children.length, ?_⟩
          context := ⟨0, by simp [hOpened]⟩
          grouped := ⟨group.children.length, ?_⟩ }
      · intro other hMem
        rcases List.mem_cons.1 hMem with rfl | hOuter
        · exact Node.PositionsOk.declare hGroup v
        · exact h.opened other (hOpened ▸ List.mem_cons_of_mem group hOuter)
      · rw [hHere]
        simp only [declared, OpenGroup.declared, OpenGroup.scope, hScope, List.append_assoc]
      · simp only [hOpened, grouped, OpenGroup.declared, OpenGroup.scope, hScope,
          List.append_assoc, reduceCtorEq, if_false]

/-! ### The finished deck -/

theorem declarations_finish (h : draft.PositionsOk) :
    draft.finish.deck.declarations = draft.declared := by
  have hDeclared := declared_closeTo h 0
  rw [declared, opened_closeTo_zero, OpenGroup.declared, List.append_nil] at hDeclared
  exact hDeclared

theorem grouped_finish (h : draft.PositionsOk) :
    draft.finish.deck.children.flatMap Node.declarations = draft.grouped := by
  have hGrouped := grouped_closeTo h 0
  rw [grouped, opened_closeTo_zero, OpenGroup.declared, List.append_nil] at hGrouped
  exact hGrouped

end Draft

/-! ## Attached samples -/

theorem length_attachAll (named : Ordered Sample) (nodes : List Node) :
    (Node.attachAll named nodes).length = nodes.length := by
  induction nodes with
  | nil => rfl
  | cons node rest ih => simp only [Node.attachAll, List.length_cons, ih]

mutual

/-- Samples are not declarations. -/
theorem declarations_attach (named : Ordered Sample) (node : Node) :
    (node.attach named).declarations = node.declarations := by
  cases node with
  | leaf value samples => rfl
  | lead text => rfl
  | group header children =>
      simp only [Node.attach, Node.declarations, length_attachAll]
      exact declarationsFrom_attachAll named header.context children.length 0 children

theorem declarationsFrom_attachAll (named : Ordered Sample) (declared : List ContextVariable)
    (total index : Nat) (nodes : List Node) :
    Node.declarationsFrom declared total index (Node.attachAll named nodes) =
      Node.declarationsFrom declared total index nodes := by
  cases nodes with
  | nil => rfl
  | cons node rest =>
      simp only [Node.attachAll, Node.declarationsFrom, declarations_attach named node,
        declarationsFrom_attachAll named declared total (index + 1) rest]

end

theorem declarations_attached (doc : Document) :
    doc.attached.deck.declarations = doc.deck.declarations := by
  simp only [attached, Deck.declarations, length_attachAll]
  exact declarationsFrom_attachAll _ _ _ _ _

end Document

end Deckwright
