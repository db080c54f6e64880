import Deckwright.Deck.Basic

/-!
# Decks as JSON

Encoders and decoders of decks. A node is an object whose field `kind` says which of the
three kinds it is. Empty lists of samples, of a group's variables and of tools are left
out, as is an absent title.

Inside a node two more spellings are understood: a kind may be given by its number, and an
alternative given as an object may be filled with an empty object.
-/

namespace Deckwright

namespace Layout

/-- The name of a layout. -/
def name : Layout → String
  | tagged => "tagged"
  | markdown => "markdown"

/-- The layout with the given name. -/
def ofName? : String → Option Layout
  | "tagged" => some tagged
  | "markdown" => some markdown
  | _ => none

theorem ofName?_name (layout : Layout) : ofName? layout.name = some layout := by
  cases layout <;> rfl

/-- Reads a layout; `empty` tells how one given as an object is filled. -/
def ofJson? (empty : Json → Bool) (value : Json) : Option Layout :=
  (value.choice? empty).bind ofName?

end Layout

/-- A list as an array, left out when it is empty. -/
def nonemptyField {α : Type} (name : String) (encode : α → Json) :
    List α → List (String × Json)
  | [] => []
  | items => [(name, .array (items.map encode))]

/-- The fields of a group other than its children. -/
def Header.fields (header : Header) : List (String × Json) :=
  [("name", .string header.name), ("layout", .string header.layout.name),
    ("level", .int header.level.toNat)] ++
    nonemptyField "context" ContextVariable.toJson header.context

mutual

/-- A node as an object. -/
def Node.toJson : Node → Json
  | .leaf value samples =>
    Json.ofFields ([("kind", .string "leaf"), ("value", .string value)] ++
      nonemptyField "samples" Sample.toJson samples)
  | .lead text => Json.ofFields [("kind", .string "lead"), ("text", .string text)]
  | .group header children =>
    Json.ofFields (("kind", .string "group") :: ("children", .array (Node.toJsonAll children)) ::
      header.fields)

/-- A list of nodes as a list of objects. -/
def Node.toJsonAll : List Node → List Json
  | [] => []
  | node :: rest => node.toJson :: Node.toJsonAll rest

end

/-- A group as an object, without its kind. -/
def groupToJson (header : Header) (children : List Node) : Json :=
  Json.ofFields (("children", .array (Node.toJsonAll children)) :: header.fields)

/-- The kinds of nodes, in the order of their numbers. -/
def nodeKinds : List String := ["leaf", "group", "lead"]

/-- The kind of a node, by name or, inside another node, by number. -/
def nodeKind? (inner : Bool) : Json → Option String
  | .string name => if nodeKinds.contains name then some name else none
  | .int i => if inner && 0 ≤ i then nodeKinds[i.toNat]? else none
  | _ => none

/-- The kind of a node and the value that holds its other fields. -/
def untagged? (inner : Bool) : Json → Option (String × Json)
  | .object fields => do
    let kind ← nodeKind? inner (← Ordered.get? "kind" fields)
    return (kind, .object (Ordered.erase "kind" fields))
  | .array (kind :: items) => do
    let kind ← nodeKind? inner kind
    return (kind, .array items)
  | _ => none

theorem sizeOf_filter (p : String × Json → Bool) (fields : Json.Fields) :
    sizeOf (fields.filter p) ≤ sizeOf fields := by
  induction fields with
  | nil => simp
  | cons field rest ih =>
    simp only [List.filter_cons]
    split
    · simp
      omega
    · simp
      omega

/-- The other fields of a node are no larger than the node. -/
theorem sizeOf_untagged? {inner : Bool} {value body : Json} {kind : String}
    (h : untagged? inner value = some (kind, body)) : sizeOf body ≤ sizeOf value := by
  unfold untagged? at h
  split at h
  · rename_i fields
    have hSize := sizeOf_filter (fun field => field.1 != "kind") fields
    simp [Option.bind_eq_some_iff] at h
    obtain ⟨_, _, _, _, _, rfl⟩ := h
    simp [Ordered.erase]
    exact hSize
  · simp [Option.bind_eq_some_iff] at h
    obtain ⟨_, _, _, rfl⟩ := h
    simp
  · simp at h

/-- Reads the parts of a group other than its children. -/
def Header.ofFields? (fields : Json.Fields) : Option Header := do
  return {
    name := ← fields.required? "name" Json.string?
    layout := ← fields.defaulted? "layout" .tagged (Layout.ofJson? Json.isEmptyContent)
    level := ← fields.defaulted? "level" 0 Json.uint8?
    context := ← fields.defaulted? "context" []
      (Json.list? (ContextVariable.ofJson? Json.isEmptyContent)) }

mutual

/-- Reads a node; `inner` tells whether it stands inside another one. -/
def Node.ofJson? (inner : Bool) (value : Json) : Option Node :=
  match hBody : untagged? inner value with
  | none => none
  | some (kind, body) =>
    if kind = "leaf" then do
      let fields ← body.record? ["value", "samples"] 1
      return .leaf (← fields.required? "value" Json.string?)
        (← fields.defaulted? "samples" [] (Json.list? Sample.ofJson?))
    else if kind = "lead" then do
      let fields ← body.record? ["text"] 1
      return .lead (← fields.required? "text" Json.string?)
    else
      match hFields : body.record? ["name", "layout", "level", "children", "context"] 1 with
      | none => none
      | some fields => do
        let header ← Header.ofFields? fields
        match hChildren : fields.get? "children" with
        | none => return .group header []
        | some (.array items) =>
          have hSize : sizeOf items < sizeOf value := by
            have hField := Json.sizeOf_field hFields hChildren
            have := sizeOf_untagged? hBody
            simp at hField
            omega
          return .group header (← Node.ofJsonAll? true items)
        | some _ => none
termination_by sizeOf value

/-- Reads a list of nodes. -/
def Node.ofJsonAll? (inner : Bool) (items : List Json) : Option (List Node) :=
  match items with
  | [] => some []
  | item :: rest => do
    return (← Node.ofJson? inner item) :: (← Node.ofJsonAll? inner rest)
termination_by sizeOf items

end

namespace Deck

/-- A deck as an object. -/
def toJson (d : Deck) : Json :=
  Json.ofFields
    ([("name", .string d.name), ("layout", .string d.layout.name),
      ("children", .array (Node.toJsonAll d.children)),
      ("context", .array (d.context.map ContextVariable.toJson))] ++
      Json.field? "title" Json.string d.title ++ nonemptyField "tools" Tool.toJson d.tools)

/-- The items of an array. -/
def items? : Json → Option (List Json)
  | .array items => some items
  | _ => none

/-- Reads a deck. -/
def ofJson? (value : Json) : Option Deck := do
  let fields ← value.record? ["name", "title", "layout", "children", "context", "tools"] 1
  return {
    name := ← fields.required? "name" Json.string?
    title := ← fields.optional? "title" Json.string?
    layout := ← fields.defaulted? "layout" .tagged (Layout.ofJson? Json.isNull)
    children := ← fields.defaulted? "children" [] fun children =>
      (items? children).bind (Node.ofJsonAll? false)
    context := ← fields.defaulted? "context" []
      (Json.list? (ContextVariable.ofJson? Json.isNull))
    tools := ← fields.defaulted? "tools" [] (Json.list? Tool.ofJson?) }

end Deck

end Deckwright
