import Deckwright.Proofs.Scopes

/-!
# Declaring a variable again

A scope keeps a variable that it declares again in the place of its first declaration. If a group
behind that place has declared the name in the meantime, the new declaration is late: in the walk
over all scopes the group still comes behind it, and has the last word when the walk is merged.

* `declarationsFrom_split`: where the walk meets a variable of a scope, and which names it meets
  behind it.
* `mergedContext_scope_of_not_late`, `mergedContext_scope_of_late`: what declaring one more
  variable does to the merged variables of a scope.
* `mergedContext_scope_foldl`: the same for the variables of one call.
-/

namespace Deckwright

/-- Variables merged by name in their order. -/
def mergedContext (declared : List ContextVariable) : List ContextVariable :=
  declared.foldl mergeContext []

theorem mergedContext_append (declared more : List ContextVariable) :
    mergedContext (declared ++ more) = more.foldl mergeContext (mergedContext declared) :=
  List.foldl_append

/-- Variables that are merged in portions. -/
theorem foldl_mergedContext (declared more : List ContextVariable) :
    (mergedContext more).foldl mergeContext declared = more.foldl mergeContext declared := by
  rw [mergedContext, mergeContext_eq]
  exact ContextVariable.overwrites.foldl_mergeBy_foldl declared more

theorem names_foldl_mergeContext (declared more : List ContextVariable) :
    (more.foldl mergeContext declared).map ContextVariable.name =
      (more.map ContextVariable.name).foldl addKey (declared.map ContextVariable.name) := by
  rw [mergeContext_eq]
  exact ContextVariable.overwrites.map_key_foldl_mergeBy declared more

theorem mem_names_mergedContext {declared : List ContextVariable} {name : String} :
    name ∈ (mergedContext declared).map ContextVariable.name ↔
      name ∈ declared.map ContextVariable.name := by
  rw [mergedContext, names_foldl_mergeContext, mem_foldl_addKey]
  simp

/-! ## The walk over a scope -/

namespace Node

theorem not_mem_names_declaredAt {declared : List ContextVariable} {name : String}
    (h : name ∉ declared.map ContextVariable.name) (total index : Nat) :
    name ∉ (declaredAt declared total index).map ContextVariable.name := by
  intro hMem
  obtain ⟨v, hIn, rfl⟩ := List.mem_map.1 hMem
  exact h (List.mem_map_of_mem (List.mem_of_mem_filter hIn))

/-- Whether a node declares the name. -/
def Declares (name : String) (node : Node) : Prop :=
  name ∈ node.declarations.map ContextVariable.name

/-- What a scope does not declare itself is declared in its groups. -/
theorem mem_names_declarationsFrom {declared : List ContextVariable} {name : String}
    (h : name ∉ declared.map ContextVariable.name) (total index : Nat) (nodes : List Node) :
    name ∈ (declarationsFrom declared total index nodes).map ContextVariable.name ↔
      ∃ node ∈ nodes, node.Declares name := by
  induction nodes generalizing index with
  | nil =>
      simp only [declarationsFrom, List.not_mem_nil, false_and, exists_false, iff_false]
      exact not_mem_names_declaredAt h total index
  | cons node rest ih =>
      simp only [declarationsFrom, List.map_append, List.mem_append, ih, Declares,
        List.exists_mem_cons_iff, not_mem_names_declaredAt h total index, false_or]

/-- A variable of a scope stands somewhere in the walk, whatever it is besides its position. Behind
it stands its own name only if a group behind it declares that name. -/
theorem declarationsFrom_split {before after : List ContextVariable} {name : String}
    (hBefore : name ∉ before.map ContextVariable.name)
    (hAfter : name ∉ after.map ContextVariable.name) {position total : Nat} {nodes : List Node}
    {index : Nat} (hTotal : index + nodes.length = total) (hIndex : index ≤ position)
    (hPosition : position ≤ total) :
    ∃ front back, (∀ v : ContextVariable, v.position = position →
        declarationsFrom (before ++ v :: after) total index nodes = front ++ v :: back) ∧
      (name ∈ back.map ContextVariable.name ↔
        ∃ node ∈ nodes.drop (position - index), node.Declares name) := by
  have hWithout : name ∉ (before ++ after).map ContextVariable.name := by
    simp only [List.map_append, List.mem_append, not_or]
    exact ⟨hBefore, hAfter⟩
  have hHere (v : ContextVariable) (hv : v.position = position) :
      declaredAt (before ++ v :: after) total position =
        declaredAt before total position ++ v :: declaredAt after total position := by
    rw [declaredAt_append, ← List.singleton_append, declaredAt_append, ← hv,
      declaredAt_singleton (hv ▸ hPosition), List.singleton_append]
  have hElsewhere (v : ContextVariable) (hv : v.position = position) (i : Nat)
      (hi : position ≠ i) :
      declaredAt (before ++ v :: after) total i = declaredAt (before ++ after) total i := by
    rw [declaredAt_append, ← List.singleton_append, declaredAt_append,
      declaredAt_singleton_of_ne (hv ▸ hPosition) (hv ▸ hi), List.nil_append, declaredAt_append]
  -- the induction is on the nodes that the walk still has in front of it
  induction nodes generalizing index with
  | nil =>
      obtain rfl : index = position := by
        rw [List.length_nil] at hTotal
        omega
      refine ⟨declaredAt before total index, declaredAt after total index, hHere, ?_⟩
      simp only [List.drop_nil, List.not_mem_nil, false_and, exists_false, iff_false]
      exact not_mem_names_declaredAt hAfter total index
  | cons node rest ih =>
      rw [List.length_cons] at hTotal
      rcases Nat.eq_or_lt_of_le hIndex with rfl | hLt
      · -- the variable stands just before this node
        refine ⟨declaredAt before total index, declaredAt after total index ++
          (node.declarations ++ declarationsFrom (before ++ after) total (index + 1) rest),
          fun v hv => ?_, ?_⟩
        · rw [declarationsFrom, hHere v hv,
            declarationsFrom_congr fun i hLower _ => hElsewhere v hv i (by omega)]
          simp
        · rw [Nat.sub_self, List.drop_zero]
          simp only [List.map_append, List.mem_append,
            mem_names_declarationsFrom hWithout total (index + 1) rest,
            not_mem_names_declaredAt hAfter total index, false_or, List.exists_mem_cons_iff,
            Declares]
      · -- it stands behind this node, so all of the node is in front of it
        obtain ⟨front, back, hSplit, hBack⟩ := @ih (index + 1) (by omega) hLt
        refine ⟨declaredAt (before ++ after) total index ++ node.declarations ++ front, back,
          fun v hv => ?_, ?_⟩
        · rw [declarationsFrom, hElsewhere v hv index (by omega), hSplit v hv, List.append_assoc,
            List.append_assoc, List.append_assoc]
        · rw [hBack, show position - index = position - (index + 1) + 1 by omega,
            List.drop_succ_cons]

/-! ## Declaring one more variable -/

/-- Whether a scope declares the name and a group behind that place declares it again. A further
declaration of the name in the scope is late: it takes the place in front of the group. -/
def Late (declared : List ContextVariable) (children : List Node) (name : String) : Prop :=
  ∃ v ∈ declared, v.name = name ∧ ∃ node ∈ children.drop v.position, node.Declares name

/-- What a scope knows of its variables: no position behind the last child, every name once. -/
structure ScopeOk (declared : List ContextVariable) (children : List Node) : Prop where
  positions : PositionsOk declared children
  nodup : (declared.map ContextVariable.name).Nodup

variable {declared : List ContextVariable} {children : List Node} {v : ContextVariable}

/-- A variable of a known name replaces the one that is there. -/
theorem exists_mergeContext_of_mem (h : ScopeOk declared children)
    (hMem : v.name ∈ declared.map ContextVariable.name) :
    ∃ before w after, declared = before ++ w :: after ∧ w.name = v.name ∧
      v.name ∉ before.map ContextVariable.name ∧ v.name ∉ after.map ContextVariable.name ∧
      mergeContext declared v = before ++ w.inPlaceOf v :: after := by
  obtain ⟨before, w, after, rfl, hName, hBefore, hAfter⟩ := exists_only h.nodup hMem
  refine ⟨before, w, after, rfl, hName, hBefore, hAfter, ?_⟩
  rw [mergeContext_eq]
  exact mergeBy_append hName hBefore

theorem ScopeOk.mergeContext (h : ScopeOk declared children)
    (hPosition : v.position = children.length) :
    ScopeOk (mergeContext declared v) children := by
  by_cases hMem : v.name ∈ declared.map ContextVariable.name
  · obtain ⟨before, w, after, rfl, hName, -, -, hMerge⟩ := exists_mergeContext_of_mem h hMem
    rw [hMerge]
    constructor
    · intro u hIn
      rw [List.mem_append, List.mem_cons] at hIn
      rcases hIn with hIn | rfl | hIn
      · exact h.positions u (by simp [hIn])
      · exact h.positions w (by simp)
      · exact h.positions u (by simp [hIn])
    · have hSame : (w.inPlaceOf v).name = w.name := hName.symm
      have hNodup := h.nodup
      rw [List.map_append, List.map_cons] at hNodup ⊢
      rwa [hSame]
  · rw [mergeContext_of_new hMem]
    constructor
    · intro u hIn
      rcases List.mem_append.1 hIn with hIn | hIn
      · exact h.positions u hIn
      · rw [List.mem_singleton.1 hIn]
        exact Nat.le_of_eq hPosition
    · rw [List.map_append, List.nodup_append]
      refine ⟨h.nodup, List.pairwise_singleton _ _, ?_⟩
      rintro _ hIn _ hLast rfl
      exact hMem (List.mem_singleton.1 hLast ▸ hIn)

/-- Declaring a variable behind the last child makes no name late, and none in time. -/
theorem late_mergeContext (h : ScopeOk declared children)
    (hPosition : v.position = children.length) (name : String) :
    Late (Deckwright.mergeContext declared v) children name ↔ Late declared children name := by
  by_cases hMem : v.name ∈ declared.map ContextVariable.name
  · obtain ⟨before, w, after, rfl, hName, -, -, hMerge⟩ := exists_mergeContext_of_mem h hMem
    rw [hMerge]
    simp only [Late, List.mem_append, List.mem_cons, or_and_right, exists_or, exists_eq_left,
      ContextVariable.inPlaceOf, hName]
  · rw [mergeContext_of_new hMem]
    simp [Late, or_and_right, exists_or, hPosition]

/-- A variable that is not late comes last. -/
theorem mergedContext_scope_of_not_late (h : ScopeOk declared children)
    (hPosition : v.position = children.length) (hLate : ¬ Late declared children v.name) :
    mergedContext (scope (Deckwright.mergeContext declared v) children) =
      Deckwright.mergeContext (mergedContext (scope declared children)) v := by
  by_cases hMem : v.name ∈ declared.map ContextVariable.name
  · obtain ⟨before, w, after, rfl, hName, hBefore, hAfter, hMerge⟩ :=
      exists_mergeContext_of_mem h hMem
    have hLe : w.position ≤ children.length := h.positions w (by simp)
    obtain ⟨front, back, hSplit, hBack⟩ := declarationsFrom_split hBefore hAfter
      (Nat.zero_add children.length) (Nat.zero_le w.position) hLe
    have hNew : v.name ∉ back.map ContextVariable.name := fun hIn =>
      hLate ⟨w, by simp, hName, hBack.1 hIn⟩
    rw [hMerge, scope, scope, hSplit w rfl, hSplit (w.inPlaceOf v) rfl, mergedContext_append,
      mergedContext_append, List.foldl_cons, List.foldl_cons, mergeContext_eq]
    exact ContextVariable.overwrites.foldl_mergeBy_put hName _ hNew
  · rw [mergeContext_of_new hMem, scope_declare hPosition, mergedContext_append]
    rfl

/-- A late variable does not count. -/
theorem mergedContext_scope_of_late (h : ScopeOk declared children)
    (hLate : Late declared children v.name) :
    mergedContext (scope (Deckwright.mergeContext declared v) children) =
      mergedContext (scope declared children) := by
  obtain ⟨u, hIn, hSame, hGroup⟩ := hLate
  have hMem : v.name ∈ declared.map ContextVariable.name := List.mem_map.2 ⟨u, hIn, hSame⟩
  obtain ⟨before, w, after, rfl, hName, hBefore, hAfter, hMerge⟩ :=
    exists_mergeContext_of_mem h hMem
  -- the place that the group is behind is the one that the new declaration goes to
  have hUnique : u = w := by
    rw [List.mem_append, List.mem_cons] at hIn
    rcases hIn with hIn | rfl | hIn
    · exact absurd (List.mem_map.2 ⟨u, hIn, hSame⟩) hBefore
    · rfl
    · exact absurd (List.mem_map.2 ⟨u, hIn, hSame⟩) hAfter
  subst hUnique
  have hLe : u.position ≤ children.length := h.positions u hIn
  obtain ⟨front, back, hSplit, hBack⟩ := declarationsFrom_split hBefore hAfter
    (Nat.zero_add children.length) (Nat.zero_le u.position) hLe
  rw [hMerge, scope, scope, hSplit u rfl, hSplit (u.inPlaceOf v) rfl, mergedContext_append,
    mergedContext_append, List.foldl_cons, List.foldl_cons, mergeContext_eq]
  exact ContextVariable.overwrites.foldl_mergeBy_of_mem hName _ (hBack.2 hGroup)

/-- Variables that are declared together: those of late names do not count. -/
theorem mergedContext_scope_foldl (h : ScopeOk declared children) {late : String → Bool}
    (hLate : ∀ name, late name ↔ Late declared children name) {more : List ContextVariable}
    (hMore : ∀ v ∈ more, v.position = children.length) :
    mergedContext (scope (more.foldl Deckwright.mergeContext declared) children) =
        (more.filter fun v => !late v.name).foldl Deckwright.mergeContext
          (mergedContext (scope declared children)) ∧
      ScopeOk (more.foldl Deckwright.mergeContext declared) children ∧
      ∀ name, late name ↔ Late (more.foldl Deckwright.mergeContext declared) children name := by
  induction more generalizing declared with
  | nil => exact ⟨rfl, h, hLate⟩
  | cons v rest ih =>
      have hPosition := hMore v List.mem_cons_self
      have hStill (name : String) : late name ↔
          Late (Deckwright.mergeContext declared v) children name :=
        (hLate name).trans (late_mergeContext h hPosition name).symm
      obtain ⟨hMerged, hRest⟩ := ih (h.mergeContext hPosition) hStill
        fun w hIn => hMore w (List.mem_cons_of_mem v hIn)
      refine ⟨?_, hRest⟩
      rw [List.foldl_cons, hMerged, List.filter_cons]
      cases hCase : late v.name with
      | true =>
          rw [mergedContext_scope_of_late h ((hLate _).1 hCase)]
          rfl
      | false =>
          have hNot : ¬ Late declared children v.name := fun hIs => by
            rw [(hLate _).2 hIs] at hCase
            cases hCase
          rw [mergedContext_scope_of_not_late h hPosition hNot]
          rfl

/-- A further child makes the names late that it declares and the scope knows. -/
theorem late_append_singleton (h : ScopeOk declared children) (node : Node) (name : String) :
    Late declared (children ++ [node]) name ↔ Late declared children name ∨
      name ∈ declared.map ContextVariable.name ∧ node.Declares name := by
  have hDrop {v : ContextVariable} (hIn : v ∈ declared) :
      (children ++ [node]).drop v.position = children.drop v.position ++ [node] :=
    List.drop_append_of_le_length (h.positions v hIn)
  constructor
  · rintro ⟨v, hIn, hName, other, hOther, hDeclares⟩
    rw [hDrop hIn, List.mem_append, List.mem_singleton] at hOther
    rcases hOther with hOther | rfl
    · exact .inl ⟨v, hIn, hName, other, hOther, hDeclares⟩
    · exact .inr ⟨List.mem_map.2 ⟨v, hIn, hName⟩, hDeclares⟩
  · rintro (⟨v, hIn, hName, other, hOther, hDeclares⟩ | ⟨hKnown, hDeclares⟩)
    · refine ⟨v, hIn, hName, other, ?_, hDeclares⟩
      rw [hDrop hIn]
      exact List.mem_append_left _ hOther
    · obtain ⟨v, hIn, hName⟩ := List.mem_map.1 hKnown
      refine ⟨v, hIn, hName, node, ?_, hDeclares⟩
      rw [hDrop hIn]
      simp

end Node

end Deckwright
