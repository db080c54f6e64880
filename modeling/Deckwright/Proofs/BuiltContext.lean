import Deckwright.Proofs.Calls
import Deckwright.Proofs.Redeclarations

/-!
# The variables of built decks

The variables that the calls on a builder declare are merged twice: in each scope when they are
declared, and over all scopes when the deck is asked for them. A declaration is overtaken when its
scope has declared the name before and a group of that scope has declared it since; these are the
declarations that come late to the walk over the scopes.

* `Call.overtakes_append_singleton`: how a call changes which names are overtaken.
* `Call.Makes`: what is known of the scope that calls have made, with `Call.Makes.addCard` for a
  call that adds a node and `Call.Makes.declare` for one that declares variables.
* `makes_performAll`: a whole run, by induction on the calls and on the bodies of groups.

Main result: `allContext_build`. The variables of a deck are those declarations of the program,
merged in the order of the calls, that are not overtaken.
-/

namespace Deckwright

/-! ## Declarations of a program -/

mutual

/-- Whether a call declares the name, in its own scope or in a group that it makes. -/
def Call.declares (name : String) : Call → Bool
  | .context declarations => declarations.any fun (_, declared, _) => declared = name
  | .group _ body => Call.anyDeclares name body
  | _ => false

/-- Whether one of the calls declares the name. -/
def Call.anyDeclares (name : String) : List Call → Bool
  | [] => false
  | call :: rest => call.declares name || Call.anyDeclares name rest

end

namespace Call

/-- Whether a call makes a group. -/
def isGroup : Call → Bool
  | .group _ _ => true
  | _ => false

/-- The number of nodes that a call adds. -/
def size : Call → Nat
  | .tool _ => 0
  | .context _ => 0
  | _ => 1

/-- The number of nodes that calls add. -/
def sizeAll : List Call → Nat
  | [] => 0
  | call :: rest => call.size + sizeAll rest

/-- Whether a call declares the name in its own scope. -/
def declaresHere (name : String) (call : Call) : Bool :=
  !call.isGroup && call.declares name

/-- Whether a call makes a group that declares the name. -/
def declaresBelow (name : String) (call : Call) : Bool :=
  call.isGroup && call.declares name

/-- Whether the calls of a scope declare the name there and then make a group that declares it. -/
def overtakes (name : String) (calls : List Call) : Bool :=
  (calls.dropWhile fun call => !call.declaresHere name).any (declaresBelow name)

end Call

/-- A declaration of a program. -/
structure Declaration where
  /-- The variable, behind the nodes that its scope has. -/
  declared : ContextVariable
  /-- Whether a group of the scope has declared the name since the scope did so first. -/
  overtaken : Bool

mutual

/-- The declarations of a call that comes behind other calls of its scope. -/
def Call.declarations (before : List Call) : Call → List Declaration
  | .context declarations => declarations.map fun (kind, name, question) =>
    ⟨{ name, kind, question, position := Call.sizeAll before }, Call.overtakes name before⟩
  | .group _ body => Call.declarationsAll [] body
  | _ => []

/-- The declarations of calls in their order, those of groups where the groups are made. -/
def Call.declarationsAll (before : List Call) : List Call → List Declaration
  | [] => []
  | call :: rest => call.declarations before ++ Call.declarationsAll (before ++ [call]) rest

end

namespace Declaration

/-- Every variable that is declared, in the order of the declarations. -/
def all (declarations : List Declaration) : List ContextVariable :=
  declarations.map declared

/-- The variables that are declared and not overtaken. -/
def lasting (declarations : List Declaration) : List ContextVariable :=
  all (declarations.filter fun d => !d.overtaken)

theorem all_append (declarations more : List Declaration) :
    all (declarations ++ more) = all declarations ++ all more :=
  List.map_append

theorem lasting_append (declarations more : List Declaration) :
    lasting (declarations ++ more) = lasting declarations ++ lasting more := by
  simp only [lasting, List.filter_append, all_append]

theorem lasting_of_none_overtaken {declarations : List Declaration}
    (h : ∀ d ∈ declarations, d.overtaken = false) :
    lasting declarations = all declarations := by
  rw [lasting, List.filter_eq_self.2 fun d hMem => by simp [h d hMem]]

end Declaration

namespace Call

theorem declarationsAll_append_singleton (before calls : List Call) (call : Call) :
    declarationsAll before (calls ++ [call]) =
      declarationsAll before calls ++ call.declarations (before ++ calls) := by
  induction calls generalizing before with
  | nil => simp [declarationsAll]
  | cons first rest ih => simp [declarationsAll, ih]

theorem sizeAll_append_singleton (calls : List Call) (call : Call) :
    sizeAll (calls ++ [call]) = sizeAll calls + call.size := by
  induction calls with
  | nil => simp [sizeAll]
  | cons first rest ih => simp only [List.cons_append, sizeAll, ih, Nat.add_assoc]

/-- A further call overtakes a name if it makes a group that declares it, in a scope that has
declared it before. -/
theorem overtakes_append_singleton (name : String) (calls : List Call) (call : Call) :
    overtakes name (calls ++ [call]) =
      (overtakes name calls || calls.any (declaresHere name) && call.declaresBelow name) := by
  induction calls with
  | nil =>
      cases hHere : call.declaresHere name with
      | false => simp [overtakes, hHere, List.dropWhile]
      | true =>
          have hNot : call.declaresBelow name = false := by
            simp only [declaresHere, Bool.and_eq_true, Bool.not_eq_true'] at hHere
            rw [declaresBelow, hHere.1, Bool.false_and]
          simp [overtakes, hHere, hNot, List.dropWhile]
  | cons first rest ih =>
      cases hHere : first.declaresHere name with
      | true => simp [overtakes, hHere, List.dropWhile, Bool.or_assoc]
      | false =>
          have hSkip (more : List Call) : overtakes name (first :: more) = overtakes name more := by
            simp [overtakes, hHere, List.dropWhile]
          rw [List.cons_append, hSkip, hSkip, ih, List.any_cons, hHere, Bool.false_or]

end Call

mutual

theorem Call.declares_iff (name : String) (before : List Call) (call : Call) :
    call.declares name ↔
      name ∈ (Declaration.all (call.declarations before)).map ContextVariable.name := by
  cases call with
  | context declarations =>
      simp [Call.declares, Call.declarations, Declaration.all]
  | group title body =>
      rw [Call.declares, Call.declarations]
      exact Call.anyDeclares_iff name [] body
  | _ => simp [Call.declares, Call.declarations, Declaration.all]

theorem Call.anyDeclares_iff (name : String) (before calls : List Call) :
    Call.anyDeclares name calls ↔
      name ∈ (Declaration.all (Call.declarationsAll before calls)).map
        ContextVariable.name := by
  cases calls with
  | nil => simp [Call.anyDeclares, Call.declarationsAll, Declaration.all]
  | cons call rest =>
      rw [Call.anyDeclares, Bool.or_eq_true, Call.declares_iff name before call,
        Call.anyDeclares_iff name (before ++ [call]) rest, Call.declarationsAll,
        Declaration.all_append, List.map_append, List.mem_append]

end

namespace Call

/-- The variables of one call are overtaken or not by their names. -/
theorem lasting_context (slots : List (ContextKind × String × String)) (before : List Call) :
    Declaration.lasting ((Call.context slots).declarations before) =
      (Declaration.all ((Call.context slots).declarations before)).filter fun v =>
        !overtakes v.name before := by
  simp only [Declaration.lasting, Declaration.all, declarations, List.filter_map, List.map_map]
  rfl

theorem names_lasting_context (slots : List (ContextKind × String × String))
    (before : List Call) :
    (Declaration.lasting ((Call.context slots).declarations before)).map ContextVariable.name =
      ((Declaration.all ((Call.context slots).declarations before)).map
        ContextVariable.name).filter fun name => !overtakes name before := by
  rw [lasting_context, List.filter_map]
  rfl

end Call

/-! ## The scope that calls make -/

/-- What is known of the variables and the nodes of a scope after the calls on it. -/
structure Call.Makes (calls : List Call) (context : List ContextVariable) (cards : List Node) :
    Prop where
  size : cards.length = sizeAll calls
  scope : Node.ScopeOk context cards
  merged : mergedContext (Node.scope context cards) =
    mergedContext (Declaration.lasting (declarationsAll [] calls))
  names : (mergedContext (Node.scope context cards)).map ContextVariable.name =
    (mergedContext (Declaration.all (declarationsAll [] calls))).map ContextVariable.name
  own : ∀ name, calls.any (declaresHere name) ↔ name ∈ context.map ContextVariable.name
  late : ∀ name, overtakes name calls ↔ Node.Late context cards name

namespace Call.Makes

variable {calls : List Call} {context : List ContextVariable} {cards : List Node}

theorem nil : Makes [] [] [] where
  size := rfl
  scope := ⟨Node.PositionsOk.nil [], List.nodup_nil⟩
  merged := rfl
  names := rfl
  own := by simp
  late := by simp [overtakes, Node.Late]

/-- A call that adds a node with the declarations of the call. -/
theorem addCard (h : Makes calls context cards) {call : Call} {node : Node}
    (hSize : call.size = 1) (hHere : ∀ name, call.declaresHere name = false)
    (hMerged : mergedContext node.declarations =
      mergedContext (Declaration.lasting (call.declarations calls)))
    (hNames : (mergedContext node.declarations).map ContextVariable.name =
      (mergedContext (Declaration.all (call.declarations calls))).map
        ContextVariable.name) :
    Makes (calls ++ [call]) context (cards ++ [node]) where
  size := by rw [List.length_append, List.length_singleton, h.size, sizeAll_append_singleton, hSize]
  scope := ⟨h.scope.positions.append [node], h.scope.nodup⟩
  merged := by
    rw [Node.scope_append_singleton h.scope.positions, declarationsAll_append_singleton,
      Declaration.lasting_append, mergedContext_append, mergedContext_append, h.merged,
      ← foldl_mergedContext _ node.declarations, hMerged, foldl_mergedContext, List.nil_append]
  names := by
    rw [Node.scope_append_singleton h.scope.positions, declarationsAll_append_singleton,
      Declaration.all_append, mergedContext_append, mergedContext_append,
      ← foldl_mergedContext _ node.declarations, names_foldl_mergeContext, h.names, hNames,
      ← names_foldl_mergeContext, foldl_mergedContext, List.nil_append]
  own name := by simpa [hHere] using h.own name
  late name := by
    have hBelow : call.declaresBelow name ↔ node.Declares name := by
      have hDeclares := Call.declares_iff name calls call
      rw [← mem_names_mergedContext, ← hNames, mem_names_mergedContext] at hDeclares
      rw [Node.Declares, ← hDeclares]
      have hNot := hHere name
      cases hGroup : call.isGroup <;> simp_all [declaresHere, declaresBelow]
    rw [overtakes_append_singleton, Bool.or_eq_true, Bool.and_eq_true, h.late, h.own, hBelow,
      Node.late_append_singleton h.scope]

theorem addTool (h : Makes calls context cards) (tool : Tool) :
    Makes (calls ++ [.tool tool]) context cards where
  size := by rw [sizeAll_append_singleton, h.size]; rfl
  scope := h.scope
  merged := by simp [h.merged, declarationsAll_append_singleton, declarations]
  names := by simp [h.names, declarationsAll_append_singleton, declarations]
  own name := by simpa [declaresHere, declares] using h.own name
  late name := by
    rw [overtakes_append_singleton, ← h.late]
    simp [declaresBelow, isGroup]

/-- A call that declares variables behind the nodes that are there. -/
theorem declare (h : Makes calls context cards)
    (slots : List (ContextKind × String × String)) :
    Makes (calls ++ [.context slots])
      ((Declaration.all ((Call.context slots).declarations calls)).foldl mergeContext context)
      cards := by
  have hPositions : ∀ v ∈ Declaration.all ((Call.context slots).declarations calls),
      v.position = cards.length := by
    intro v hMem
    simp only [Declaration.all, declarations, List.map_map, List.mem_map] at hMem
    obtain ⟨slot, -, rfl⟩ := hMem
    exact h.size.symm
  obtain ⟨hMerged, hScope, hLate⟩ := Node.mergedContext_scope_foldl h.scope h.late hPositions
  rw [← lasting_context] at hMerged
  exact
    { size := by rw [sizeAll_append_singleton, h.size]; rfl
      scope := hScope
      merged := by
        rw [hMerged, h.merged, declarationsAll_append_singleton, Declaration.lasting_append,
          mergedContext_append, List.nil_append]
      names := by
        have hKnown : ∀ name ∈ (Declaration.all ((Call.context slots).declarations calls)).map
            ContextVariable.name, (!overtakes name calls) = false →
            name ∈ (mergedContext (Node.scope context cards)).map ContextVariable.name := by
          intro name _ hOvertaken
          obtain ⟨v, hIn, hName, -⟩ := (h.late name).1 (by simpa using hOvertaken)
          exact mem_names_mergedContext.2
            (hName ▸ List.mem_map_of_mem (@Node.mem_scope context cards v hIn))
        rw [hMerged, names_foldl_mergeContext, names_lasting_context, foldl_addKey_filter hKnown,
          h.names, ← names_foldl_mergeContext, declarationsAll_append_singleton,
          Declaration.all_append, mergedContext_append, List.nil_append]
      own := fun name => by
        have hDeclares := Call.declares_iff name calls (.context slots)
        rw [names_foldl_mergeContext, mem_foldl_addKey, ← h.own, ← hDeclares, List.any_append,
          Bool.or_eq_true]
        simp [declaresHere, isGroup]
      late := fun name => by
        rw [← hLate, overtakes_append_singleton]
        simp [declaresBelow, isGroup] }

end Call.Makes

/-! ## Runs of a builder -/

theorem ContextVariable.map_atPosition_mergeContext (declared : List ContextVariable)
    (v : ContextVariable) (position : Nat) :
    (mergeContext declared v).map (atPosition · position) =
      mergeContext (declared.map (atPosition · position)) (v.atPosition position) := by
  induction declared with
  | nil => rfl
  | cons w rest ih =>
      by_cases hName : w.name = v.name
      · simp [mergeContext, atPosition, hName]
      · simp only [mergeContext, atPosition, List.map_cons, if_neg hName] at ih ⊢
        rw [ih]

theorem ContextVariable.map_atPosition_mergedContext (declared : List ContextVariable)
    (position : Nat) :
    (mergedContext declared).map (atPosition · position) =
      mergedContext (declared.map (atPosition · position)) := by
  induction declared using List.reverseRecOn with
  | nil => rfl
  | append_singleton rest v ih =>
      rw [List.map_append, mergedContext_append, mergedContext_append, ← ih]
      exact map_atPosition_mergeContext _ v position

namespace ContextBuilder

/-- The variables of one call, as they were given. -/
def given (slots : List (ContextKind × String × String)) : List ContextVariable :=
  slots.map fun (kind, name, question) => { name, kind, question }

/-- An error stays, so without one at the end every variable was merged. -/
theorem foldl_declare_of_error_eq_none {b : ContextBuilder}
    {slots : List (ContextKind × String × String)}
    (h : (slots.foldl (fun b (kind, name, question) => b.declare kind name question) b).error =
      none) :
    (slots.foldl (fun b (kind, name, question) => b.declare kind name question) b).declared =
      (given slots).foldl mergeContext b.declared ∧ b.error = none := by
  induction slots generalizing b with
  | nil => exact ⟨rfl, h⟩
  | cons slot rest ih =>
      obtain ⟨kind, name, question⟩ := slot
      rw [List.foldl_cons] at h ⊢
      obtain ⟨hDeclared, hNone⟩ := ih h
      cases hError : b.error with
      | some e => simp [declare, hError] at hNone
      | none =>
          refine ⟨?_, rfl⟩
          rw [hDeclared]
          by_cases hBlank : blank name
          · simp [declare, hError, hBlank] at hNone
          · simp [declare, hError, hBlank, given]

/-- Without an error the variables of one call are merged by name. -/
theorem declared_ofList {slots : List (ContextKind × String × String)}
    (h : (ofList slots).error = none) : (ofList slots).declared = mergedContext (given slots) :=
  (foldl_declare_of_error_eq_none h).1

end ContextBuilder

namespace Builder

/-- The variables of a call are those of the program, behind the nodes that are there. -/
theorem foldl_declared {slots : List (ContextKind × String × String)} {calls : List Call}
    {context : List ContextVariable} {cards : List Node}
    (hSize : cards.length = Call.sizeAll calls)
    (hSlots : (ContextBuilder.ofList slots).error = none) :
    ((ContextBuilder.ofList slots).declared.map (·.atPosition cards.length)).foldl
        mergeContext context =
      (Declaration.all ((Call.context slots).declarations calls)).foldl mergeContext context := by
  have hPlaced : (ContextBuilder.given slots).map (·.atPosition cards.length) =
      Declaration.all ((Call.context slots).declarations calls) := by
    simp only [ContextBuilder.given, Declaration.all, Call.declarations, List.map_map, hSize]
    rfl
  rw [ContextBuilder.declared_ofList hSlots, ContextVariable.map_atPosition_mergedContext,
    foldl_mergedContext, hPlaced]

mutual

/-- A call without an error keeps what is known of the scope, with the call behind the others. -/
theorem makes_perform (b : Builder) {calls : List Call}
    (h : Call.Makes calls b.context b.cards) (call : Call)
    (hError : (b.perform call).error = none) :
    Call.Makes (calls ++ [call]) (b.perform call).context (b.perform call).cards := by
  have hPerformed := performed hError
  generalize b.perform call = next at hPerformed ⊢
  cases hPerformed with
  | spec => exact h.addCard rfl (fun _ => rfl) rfl rfl
  | specWith => exact h.addCard rfl (fun _ => rfl) rfl rfl
  | lead => exact h.addCard rfl (fun _ => rfl) rfl rfl
  | tool => exact h.addTool _
  | @context slots hSlots =>
      dsimp only
      rw [foldl_declared h.size hSlots]
      exact h.declare slots
  | @group name body hName hBody =>
      -- the body is a run of its own, on a builder that has nothing yet
      have hMakes := makes_performAll {} .nil body hBody
      exact h.addCard rfl (fun _ => rfl) hMakes.merged hMakes.names

/-- What is known of the scope holds after a run without an error. -/
theorem makes_performAll (b : Builder) {calls : List Call}
    (h : Call.Makes calls b.context b.cards) (more : List Call)
    (hError : (b.performAll more).error = none) :
    Call.Makes (calls ++ more) (b.performAll more).context (b.performAll more).cards := by
  cases more with
  | nil => simpa [performAll] using h
  | cons call rest =>
      have hCall := makes_perform b h call (error_eq_none_of_performAll hError)
      have hRest := makes_performAll _ hCall rest hError
      rwa [List.append_assoc] at hRest

end

/--
**The variables of a built deck.** They are the declarations of the program that are not
overtaken, merged in the order of the calls. The names are those of all declarations, each at the
place and at the position of its first one; where no declaration is overtaken, the variables are
all declarations merged in their order.
-/
theorem allContext_build (name : String) (calls : List Call)
    (hError : (performAll { name } calls).error = none) :
    ∃ deck, (performAll { name } calls).build = .ok deck ∧
      deck.allContext = mergedContext (Declaration.lasting (Call.declarationsAll [] calls)) ∧
      deck.allContext.map ContextVariable.name =
        (mergedContext (Declaration.all (Call.declarationsAll [] calls))).map
          ContextVariable.name ∧
      ((∀ d ∈ Call.declarationsAll [] calls, d.overtaken = false) →
        deck.allContext = mergedContext (Declaration.all (Call.declarationsAll [] calls))) := by
  have hMakes := makes_performAll { name } Call.Makes.nil calls hError
  rw [List.nil_append] at hMakes
  rw [build, hError]
  refine ⟨_, rfl, hMakes.merged, hMakes.names, fun hNone => ?_⟩
  rw [← Declaration.lasting_of_none_overtaken hNone]
  exact hMakes.merged

/-- Calls that declare names again in later scopes, and in a scope after an inner one. -/
def nestedCalls : List Call :=
  [.spec "first", .context [(.string, "x", "1?"), (.number, "y", "2?")],
    .group "G" [.group "H" [.context [(.boolean, "z", "3?")]], .lead "text",
      .context [(.string, "z", "4?"), (.object, "y", "5?")]],
    .context [(.string, "w", "6?")]]

/-- The last declaration of each name counts, at the place of its first one. -/
theorem allContext_build_nested :
    ∃ deck, (performAll { name := "guide" } nestedCalls).build = .ok deck ∧
      deck.allContext.map (fun v => (v.name, v.kind, v.question, v.position)) =
        [("x", .string, "1?", 1), ("y", .object, "5?", 1), ("z", .string, "4?", 0),
          ("w", .string, "6?", 2)] := by
  obtain ⟨deck, hBuild, -, -, hContext⟩ :=
    allContext_build "guide" nestedCalls (by decide +kernel)
  refine ⟨deck, hBuild, ?_⟩
  rw [hContext (by decide +kernel)]
  decide +kernel

/-- Calls that declare a name, then declare it in a group, and then again outside of the group. -/
def overtakenCalls : List Call :=
  [.context [(.string, "x", "1?")], .group "G" [.context [(.number, "x", "2?")]],
    .context [(.boolean, "x", "3?")]]

/-- A declaration that is overtaken does not count, although it is the last one of its name. -/
theorem allContext_overtaken :
    ∃ deck, (performAll { name := "d" } overtakenCalls).build = .ok deck ∧
      deck.allContext.map (fun v => (v.name, v.kind, v.question)) = [("x", .number, "2?")] ∧
      (mergedContext (Declaration.all (Call.declarationsAll [] overtakenCalls))).map
        (fun v => (v.name, v.kind, v.question)) = [("x", .boolean, "3?")] :=
  ⟨_, rfl, by decide +kernel, by decide +kernel⟩

end Builder

end Deckwright
