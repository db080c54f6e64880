import Deckwright.Deck.Basic

/-!
# The context variables of a deck

A deck and each of its groups is a scope with variables of its own. Over the whole deck
a variable comes just before the sibling it was declared before, a group's variables
where the group stands, and variables declared behind the last child come last. Walking
the scopes in that order and merging by name gives the variables that rendering asks for.
-/

namespace Deckwright

/--
The variables of a scope with `total` children that stand before child `index`; for
`index = total` those behind the last child.
-/
def declaredAt (declared : List ContextVariable) (total index : Nat) : List ContextVariable :=
  declared.filter fun v => min v.position total == index

mutual

/-- The declarations in the scope of a node. -/
def Node.declarations : Node → List ContextVariable
  | .group header children => Node.declarationsFrom header.context children.length 0 children
  | _ => []

/-- The declarations of a scope with `total` children, from child `index` on, whose nodes are given. -/
def Node.declarationsFrom (declared : List ContextVariable) (total index : Nat) :
    List Node → List ContextVariable
  | [] => declaredAt declared total index
  | node :: rest =>
    declaredAt declared total index ++ node.declarations ++
      Node.declarationsFrom declared total (index + 1) rest

end

namespace Deck

/-- Every declaration of the deck, in the order of the walk over its scopes. -/
def declarations (d : Deck) : List ContextVariable :=
  Node.declarationsFrom d.context d.children.length 0 d.children

/-- The variables of the deck: its declarations merged by name. -/
def allContext (d : Deck) : List ContextVariable :=
  d.declarations.foldl mergeContext []

/-- The values with the defaults of the variables that have no value yet. -/
def withDefaults (d : Deck) (values : Json.Fields) : Json.Fields :=
  d.allContext.foldl (fun filled v =>
    match filled.has v.name, v.default with
    | false, some value => filled.insert v.name value
    | _, _ => filled) values

end Deck

end Deckwright
