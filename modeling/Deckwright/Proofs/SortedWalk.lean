import Mathlib.Data.List.Sort
import Deckwright.Proofs.GradedContext
import Deckwright.Proofs.Relevance

/-!
# The walk over sorted scopes

The variables of a deck are found by looking through all variables of a scope in front of each of
its children. The same list comes about if each scope is sorted once, by the places of its variables
among the children and without changing the order of those of one place, and is then walked side by
side with the children (`Node.walk`): what is due in front of a child is taken from the front of the
sorted variables, and what is left stands behind the last child.

* `filter_sortBy`: sorting keeps the elements of one number as they are.
* `Node.walk_eq`, `Deck.walk_eq`: the walk meets the declarations of the deck, in their order.
* `mergedContext_eq_resolved`: merging is one entry for each name, where the name is met first, with
  the last declaration of the name and the position of the first one.
* `Deck.mem_names_allContext`: no name that is declared anywhere is missed.

Main result: `Deck.allContext_eq_resolved`.
-/

namespace Deckwright

/-! ## Sorting by a number -/

section Sorted

variable {α : Type} {key : α → Nat} {list : List α}

/-- A list by the numbers of its elements, those of one number in the order they have. -/
def sortBy (key : α → Nat) (list : List α) : List α :=
  list.mergeSort fun x y => key x ≤ key y

theorem le_key_trans (x y z : α) (hFirst : decide (key x ≤ key y) = true)
    (hSecond : decide (key y ≤ key z) = true) : decide (key x ≤ key z) = true :=
  decide_eq_true (Nat.le_trans (of_decide_eq_true hFirst) (of_decide_eq_true hSecond))

theorem le_key_total (x y : α) : (decide (key x ≤ key y) || decide (key y ≤ key x)) = true := by
  simpa using Nat.le_total (key x) (key y)

theorem pairwise_sortBy (key : α → Nat) (list : List α) :
    (sortBy key list).Pairwise fun x y => key x ≤ key y :=
  (list.pairwise_mergeSort le_key_trans le_key_total).imp of_decide_eq_true

/-- The elements of one number are sorted already, so they keep their order. -/
theorem filter_sortBy (key : α → Nat) (list : List α) (number : Nat) :
    (sortBy key list).filter (key · == number) = list.filter (key · == number) := by
  have hKey {x : α} (hMem : x ∈ list.filter (key · == number)) : key x = number :=
    beq_iff_eq.1 (List.mem_filter.1 hMem).2
  have hSame : (list.filter (key · == number)).Pairwise fun x y =>
      decide (key x ≤ key y) = true := by
    rw [List.pairwise_iff_forall_sublist]
    intro x y hPair
    have hFirst := hKey (hPair.subset List.mem_cons_self)
    have hSecond := hKey (hPair.subset (List.mem_cons_of_mem x List.mem_cons_self))
    exact decide_eq_true (Nat.le_of_eq (hFirst.trans hSecond.symm))
  have hInside := (List.sublist_mergeSort le_key_trans le_key_total hSame
    List.filter_sublist).filter (key · == number)
  have hOwn : (list.filter (key · == number)).filter (key · == number) =
      list.filter (key · == number) :=
    List.filter_eq_self.2 fun _ hMem => (List.mem_filter.1 hMem).2
  have hPerm := (list.mergeSort_perm fun x y => key x ≤ key y).filter (key · == number)
  rw [hOwn] at hInside
  exact (hInside.eq_of_length hPerm.length_eq.symm).symm

theorem takeWhile_eq_filter (h : list.Pairwise fun x y => key x ≤ key y) (bound : Nat) :
    list.takeWhile (key · ≤ bound) = list.filter (key · ≤ bound) := by
  induction h with
  | nil => rfl
  | @cons x rest hFirst _ ih =>
      rw [List.takeWhile_cons, List.filter_cons, ih]
      by_cases hLe : key x ≤ bound
      · rw [if_pos (decide_eq_true hLe), if_pos (decide_eq_true hLe)]
      · have hRest : rest.filter (key · ≤ bound) = [] := by
          rw [List.filter_eq_nil_iff]
          intro y hMem
          have := hFirst y hMem
          simp only [decide_eq_true_eq]
          omega
        rw [if_neg (by simpa using hLe), if_neg (by simpa using hLe), hRest]

theorem dropWhile_eq_filter (h : list.Pairwise fun x y => key x ≤ key y) (bound : Nat) :
    list.dropWhile (key · ≤ bound) = list.filter (bound < key ·) := by
  induction h with
  | nil => rfl
  | @cons x rest hFirst _ ih =>
      rw [List.dropWhile_cons, List.filter_cons, ih]
      by_cases hLe : key x ≤ bound
      · rw [if_pos (decide_eq_true hLe), if_neg (by simpa using hLe)]
      · have hRest : rest.filter (bound < key ·) = rest := by
          rw [List.filter_eq_self]
          intro y hMem
          have := hFirst y hMem
          simp only [decide_eq_true_eq]
          omega
        rw [if_neg (by simpa using hLe), if_pos (by simpa using hLe), hRest]

end Sorted

/-- The number of children that stand in front of a variable, in a scope with `total` of them. -/
def ContextVariable.place (total : Nat) (v : ContextVariable) : Nat :=
  min v.position total

/-- The variables of a scope in the order of their places among the children. -/
def byPlace (total : Nat) (declared : List ContextVariable) : List ContextVariable :=
  sortBy (ContextVariable.place total) declared

theorem filter_byPlace (total index : Nat) (declared : List ContextVariable) :
    (byPlace total declared).filter (ContextVariable.place total · == index) =
      declaredAt declared total index :=
  filter_sortBy _ declared index

theorem filter_zero_le_place (total : Nat) (declared : List ContextVariable) :
    (byPlace total declared).filter (0 ≤ ContextVariable.place total ·) =
      byPlace total declared :=
  List.filter_eq_self.2 fun _ _ => decide_eq_true (Nat.zero_le _)

/-! ## The walk -/

mutual

/-- The variables that are met in the scope of a node. -/
def Node.walk : Node → List ContextVariable
  | .group header children =>
    Node.walkFrom children.length 0 (byPlace children.length header.context) children
  | _ => []

/-- The variables that are met in a scope with `total` children, from child `index` on, whose nodes
are given and whose variables are the pending ones. -/
def Node.walkFrom (total index : Nat) (pending : List ContextVariable) :
    List Node → List ContextVariable
  | [] => pending
  | node :: rest =>
    pending.takeWhile (ContextVariable.place total · ≤ index) ++ node.walk ++
      Node.walkFrom total (index + 1)
        (pending.dropWhile (ContextVariable.place total · ≤ index)) rest

end

mutual

theorem Node.walk_eq (node : Node) : node.walk = node.declarations := by
  cases node with
  | leaf value samples => rfl
  | lead text => rfl
  | group header children =>
      rw [Node.walk, Node.declarations, ← filter_zero_le_place]
      exact Node.walkFrom_eq header.context (Nat.zero_add _)

/-- A walk has left what stands in front of the child that it has come to. -/
theorem Node.walkFrom_eq (declared : List ContextVariable) {total index : Nat} {nodes : List Node}
    (hTotal : index + nodes.length = total) :
    Node.walkFrom total index
        ((byPlace total declared).filter (index ≤ ContextVariable.place total ·)) nodes =
      Node.declarationsFrom declared total index nodes := by
  have hSorted : ((byPlace total declared).filter (index ≤ ContextVariable.place total ·)).Pairwise
      fun v w => v.place total ≤ w.place total :=
    (pairwise_sortBy (ContextVariable.place total) declared).filter _
  cases nodes with
  | nil =>
      rw [List.length_nil, Nat.add_zero] at hTotal
      rw [Node.walkFrom, Node.declarationsFrom, ← filter_byPlace]
      apply List.filter_congr
      intro v _
      have hLe : v.place total ≤ total := Nat.min_le_right _ _
      rw [Bool.eq_iff_iff, decide_eq_true_eq, beq_iff_eq]
      omega
  | cons node rest =>
      rw [List.length_cons] at hTotal
      have hHere : ((byPlace total declared).filter
          (index ≤ ContextVariable.place total ·)).filter (ContextVariable.place total · ≤ index) =
            declaredAt declared total index := by
        rw [List.filter_filter, ← filter_byPlace]
        apply List.filter_congr
        intro v _
        rw [Bool.eq_iff_iff, Bool.and_eq_true, decide_eq_true_eq, decide_eq_true_eq, beq_iff_eq]
        omega
      have hLater : ((byPlace total declared).filter
          (index ≤ ContextVariable.place total ·)).filter (index < ContextVariable.place total ·) =
            (byPlace total declared).filter (index + 1 ≤ ContextVariable.place total ·) := by
        rw [List.filter_filter]
        apply List.filter_congr
        intro v _
        rw [Bool.eq_iff_iff, Bool.and_eq_true, decide_eq_true_eq, decide_eq_true_eq,
          decide_eq_true_eq]
        omega
      rw [Node.walkFrom, Node.declarationsFrom, takeWhile_eq_filter hSorted,
        dropWhile_eq_filter hSorted, hHere, hLater, Node.walk_eq node,
        Node.walkFrom_eq declared (by omega)]

end

/-- The variables that are met in all scopes of a deck. -/
def Deck.walk (d : Deck) : List ContextVariable :=
  Node.walkFrom d.children.length 0 (byPlace d.children.length d.context) d.children

theorem Deck.walk_eq (d : Deck) : d.walk = d.declarations := by
  rw [Deck.walk, Deck.declarations, ← filter_zero_le_place]
  exact Node.walkFrom_eq d.context (Nat.zero_add _)

/-! ## One entry for each name -/

/-- The variable of a name among those that are met: as it is met last, at the position of the first
one. -/
def declaredAs (met : List ContextVariable) (name : String) : Option ContextVariable := do
  let first ← met.find? (·.name == name)
  let last ← met.reverse.find? (·.name == name)
  return last.atPosition first.position

/-- One entry for each name that is met, in the order in which the names are met first. -/
def resolved (met : List ContextVariable) : List ContextVariable :=
  (met.map ContextVariable.name).eraseDups.filterMap (declaredAs met)

theorem foldl_addKey_eq {κ : Type} [DecidableEq κ] (keys : List κ) :
    keys.foldl addKey [] = keys.eraseDups := by
  induction keys using List.reverseRecOn with
  | nil => rfl
  | append_singleton rest k ih =>
      rw [List.foldl_append, ih, List.foldl_cons, List.foldl_nil, List.eraseDups_append, addKey]
      by_cases hMem : k ∈ rest
      · rw [if_pos (List.mem_eraseDups.2 hMem)]
        simp [List.removeAll, hMem]
      · rw [if_neg (mt List.mem_eraseDups.1 hMem)]
        simp [List.removeAll, hMem, List.eraseDups_cons]

/-- The variable that is met last is declared under its name, if the name is new. -/
theorem declaredAs_append_of_new {met : List ContextVariable} {v : ContextVariable}
    (h : v.name ∉ met.map ContextVariable.name) : declaredAs (met ++ [v]) v.name = some v := by
  have hNone : met.find? (·.name == v.name) = none := by
    rw [List.find?_eq_none]
    intro w hMem hName
    exact h (List.mem_map.2 ⟨w, hMem, beq_iff_eq.1 hName⟩)
  simp [declaredAs, List.find?_append, hNone, ContextVariable.atPosition]

/-- The variable that is met last takes the place of what was declared under its name. -/
theorem declaredAs_append_of_eq_some {met : List ContextVariable} {v old : ContextVariable}
    (h : declaredAs met v.name = some old) :
    declaredAs (met ++ [v]) v.name = some (old.inPlaceOf v) := by
  simp only [declaredAs, Option.bind_eq_bind, Option.bind_eq_some_iff] at h
  obtain ⟨first, hFirst, last, _, hOld⟩ := h
  obtain rfl : last.atPosition first.position = old := Option.some.inj hOld
  simp [declaredAs, List.find?_append, hFirst, ContextVariable.atPosition,
    ContextVariable.inPlaceOf]

theorem declaredAs_append_of_ne (met : List ContextVariable) {v : ContextVariable} {name : String}
    (h : v.name ≠ name) : declaredAs (met ++ [v]) name = declaredAs met name := by
  have hOther : [v].find? (·.name == name) = none := by
    rw [List.find?_singleton, if_neg (by simpa using h)]
  rw [declaredAs, declaredAs, List.find?_append, List.reverse_append, List.find?_append,
    List.reverse_singleton, hOther, Option.or_none, Option.none_or]

/-- Each merged variable is the one that is declared under its name. -/
theorem declaredAs_of_mem {met : List ContextVariable} {v : ContextVariable}
    (h : v ∈ mergedContext met) : declaredAs met v.name = some v := by
  induction met using List.reverseRecOn generalizing v with
  | nil => cases h
  | append_singleton rest w ih =>
      rw [mergedContext_append, List.foldl_cons, List.foldl_nil, mergeContext_eq] at h
      by_cases hKnown : w.name ∈ (mergedContext rest).map ContextVariable.name
      · obtain ⟨before, old, after, hSplit, hName, hBefore, hAfter⟩ :=
          exists_only (nodup_names_mergedContext rest) hKnown
        have hOther {u : ContextVariable} (hMem : u ∈ before ++ after) : w.name ≠ u.name := by
          rintro hSame
          rcases List.mem_append.1 hMem with hFront | hBack
          · exact hBefore (hSame ▸ List.mem_map_of_mem hFront)
          · exact hAfter (hSame ▸ List.mem_map_of_mem hBack)
        have hOld : old ∈ mergedContext rest := by
          simp [hSplit]
        rw [hSplit, mergeBy_append hName hBefore, List.mem_append, List.mem_cons] at h
        rcases h with hFront | rfl | hBack
        · rw [declaredAs_append_of_ne rest (hOther (List.mem_append_left after hFront))]
          exact ih (by simp [hSplit, hFront])
        · exact declaredAs_append_of_eq_some (hName ▸ ih hOld)
        · rw [declaredAs_append_of_ne rest (hOther (List.mem_append_right before hBack))]
          exact ih (by simp [hSplit, hBack])
      · rw [mergeBy_of_new hKnown, List.mem_append, List.mem_singleton] at h
        rcases h with hOld | rfl
        · have hOther : w.name ≠ v.name := by
            rintro hSame
            exact hKnown (hSame ▸ List.mem_map_of_mem hOld)
          rw [declaredAs_append_of_ne rest hOther]
          exact ih hOld
        · exact declaredAs_append_of_new (mt mem_names_mergedContext.2 hKnown)

theorem mergedContext_eq_resolved (met : List ContextVariable) :
    mergedContext met = resolved met := by
  have hNames : (mergedContext met).map ContextVariable.name =
      (met.map ContextVariable.name).eraseDups := by
    rw [mergedContext, names_foldl_mergeContext, List.map_nil, foldl_addKey_eq]
  have hSame : (mergedContext met).filterMap (fun v => declaredAs met v.name) =
      (mergedContext met).filterMap some :=
    List.filterMap_congr fun v hMem => declaredAs_of_mem hMem
  rw [resolved, ← hNames, List.filterMap_map]
  exact (hSame.trans List.filterMap_some).symm

/-! ## Everything that is declared -/

theorem Node.mem_scope_of_child {declared : List ContextVariable} {children : List Node}
    {v : ContextVariable} (h : ∃ node ∈ children, v ∈ node.declarations) :
    v ∈ scope declared children := by
  rw [scope, declarationsFrom_eq, List.mem_append]
  exact .inl ((mem_innerFrom (Nat.le_of_eq (Nat.zero_add _))).2 (.inr h))

/-- What a group declares is met where a group at the top of the tree is walked. -/
theorem Node.exists_mem_declarations_of_stand {header : Header} {children tree : List Node}
    {v : ContextVariable} (h : Node.Stand [.group header children] tree)
    (hMem : v ∈ header.context) : ∃ node ∈ tree, v ∈ node.declarations := by
  induction h with
  | here hInfix => exact ⟨_, hInfix.subset List.mem_cons_self, mem_scope hMem⟩
  | within hGroup _ ih => exact ⟨_, hGroup, mem_scope_of_child ih⟩

namespace Deck

theorem mem_names_allContext {d : Deck} {name : String} :
    name ∈ d.allContext.map ContextVariable.name ↔ d.Declares name := by
  constructor
  · intro h
    obtain ⟨v, hMem, rfl⟩ := List.mem_map.1 h
    exact declares_of_mem_allContext hMem
  · intro h
    refine mem_names_mergedContext.2 ?_
    rcases h with hOwn | ⟨header, children, hStand, hGroup⟩
    · obtain ⟨v, hMem, rfl⟩ := List.mem_map.1 hOwn
      exact List.mem_map_of_mem (Node.mem_scope hMem)
    · obtain ⟨v, hMem, rfl⟩ := List.mem_map.1 hGroup
      exact List.mem_map_of_mem
        (Node.mem_scope_of_child (Node.exists_mem_declarations_of_stand hStand hMem))

/-- The questions of a deck that the values answer, with the answers. -/
def answered (d : Deck) (values : Json.Fields) : List (String × Json) :=
  d.allContext.filterMap fun v => (shownValue values v.name).map fun value => (v.question, value)

theorem contextMessages_eq (d : Deck) (values : Json.Fields) :
    d.contextMessages values =
      (d.answered values).flatMap fun pair => [.assistant pair.1, .user pair.2.messageText] := by
  rw [answered, contextMessages]
  induction d.allContext with
  | nil => rfl
  | cons v rest ih =>
      rw [List.flatMap_cons, ih, messages_eq, List.filterMap_cons]
      cases shownValue values v.name <;> rfl

/-- **The variables of a deck are those of a sorted walk.** The variables of a deck are the entries
that a walk over its sorted scopes leaves, one for each name and for each name that is declared
anywhere, and those with a value to show are asked for in that order. -/
theorem allContext_eq_resolved (d : Deck) :
    d.allContext = resolved d.walk ∧
      (d.allContext.map ContextVariable.name).Nodup ∧
      (∀ name, name ∈ d.allContext.map ContextVariable.name ↔ d.Declares name) ∧
      ∀ values, d.contextMessages values =
        (d.answered values).flatMap fun pair => [.assistant pair.1, .user pair.2.messageText] := by
  refine ⟨?_, nodup_names_mergedContext d.declarations, fun _ => mem_names_allContext,
    d.contextMessages_eq⟩
  rw [walk_eq]
  exact mergedContext_eq_resolved d.declarations

end Deck

end Deckwright
