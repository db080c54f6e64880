import Deckwright.Proofs.Everywhere
import Deckwright.Proofs.Records

/-!
# Decks that are written and read again

A record is written without the fields that say nothing: an absent text, an empty list, the position
zero. It is read with a default for each field, and what is left out has to be the default. So a
record is compared with what is found under each name in the object written of it
(`Sample.get?_written`, `ContextVariable.get?_written`, `Header.get?_written`, `Deck.get?_written`);
the order of the fields, and that the fields of a group stand beside its kind, are then out of sight.

Two things of a variable do not survive. A default of `null` is written but read as no default, and
a position of more than 64 bits is not read at all. All else does, at every depth, and nodes keep
their kinds (`Node.ofJson?_toJson_eq_self_iff`).

Main result: `Deck.ofJson?_toJson_iff`.
-/

namespace Deckwright

/-! ## Samples and tools -/

namespace Sample

/-- The fields of a sample as they are written. -/
def written (s : Sample) : Json.Fields :=
  Ordered.ofList s.fields

theorem names_fields (s : Sample) : (s.fields.map Prod.fst).Sublist
    ["id", "text", "score", "description", "userMessage", "assistantResponse"] := by
  simp only [fields, List.map_append]
  exact ((((Json.names_field? _ _ _).append (List.Sublist.refl ["text", "score"])).append
    (Json.names_field? _ _ _)).append (Json.names_field? _ _ _)).append (Json.names_field? _ _ _)

theorem get?_written (s : Sample) (key : String) :
    s.written.get? key =
      if key = "id" then s.id.map .string
      else if key = "text" then some (.string s.text)
      else if key = "score" then some (.int s.score.toInt)
      else if key = "description" then s.description.map .string
      else if key = "userMessage" then s.userMessage.map .string
      else if key = "assistantResponse" then s.assistantResponse.map .string
      else none := by
  rw [written, Ordered.get?_ofList_of_nodup ((names_fields s).nodup (by decide))]
  simp only [fields, Ordered.get?_append, Ordered.get?_cons, Ordered.get?_nil, Json.get?_field?]
  grind

theorem ofJson?_toJson (s : Sample) : ofJson? s.toJson = some s := by
  have hRecord (names : List String) (least : Nat) :
      s.toJson.record? names least = some s.written := rfl
  have hText : s.written.defaulted? "text" "" Json.string? = some s.text :=
    Json.Fields.defaulted?_of_get? (get?_written s "text") ""
  have hScore : score? s.written = some s.score := by
    have hOwn : s.written.get? "score" = some (.int s.score.toInt) := get?_written s "score"
    have hOther : s.written.get? "rating" = none := get?_written s "rating"
    rw [score?, hOwn, hOther]
    exact Json.int8?_int s.score
  have hId : s.written.optional? "id" Json.string? = some s.id :=
    Json.Fields.optional?_string (get?_written s "id")
  have hDescription : s.written.optional? "description" Json.string? = some s.description :=
    Json.Fields.optional?_string (get?_written s "description")
  have hUser : s.written.optional? "userMessage" Json.string? = some s.userMessage :=
    Json.Fields.optional?_string (get?_written s "userMessage")
  have hAssistant :
      s.written.optional? "assistantResponse" Json.string? = some s.assistantResponse :=
    Json.Fields.optional?_string (get?_written s "assistantResponse")
  simp only [ofJson?, hRecord, hId, hText, hScore, hDescription, hUser, hAssistant,
    Option.bind_eq_bind, Option.bind_some]
  rfl

end Sample

namespace Tool

/-- The fields of a tool as they are written. -/
def written (tool : Tool) : Json.Fields :=
  Ordered.ofList [("name", .string tool.name), ("description", .string tool.description),
    ("parameters", tool.parameters)]

theorem get?_written (tool : Tool) (key : String) :
    tool.written.get? key =
      if key = "name" then some (.string tool.name)
      else if key = "description" then some (.string tool.description)
      else if key = "parameters" then some tool.parameters
      else none := by
  rw [written, Ordered.get?_ofList_of_nodup (by simp)]
  simp only [Ordered.get?_cons, Ordered.get?_nil]

theorem ofJson?_toJson (tool : Tool) : ofJson? tool.toJson = some tool := by
  have hRecord (names : List String) (least : Nat) :
      tool.toJson.record? names least = some tool.written := rfl
  have hName : tool.written.required? "name" Json.string? = some tool.name :=
    Json.Fields.required?_of_get? (get?_written tool "name") rfl
  have hDescription :
      tool.written.defaulted? "description" "" Json.string? = some tool.description :=
    Json.Fields.defaulted?_of_get? (get?_written tool "description") ""
  have hParameters :
      tool.written.defaulted? "parameters" (.object []) Json.any? = some tool.parameters :=
    Json.Fields.defaulted?_of_get? (get?_written tool "parameters") _
  simp only [ofJson?, hRecord, hName, hDescription, hParameters, Option.bind_eq_bind,
    Option.bind_some]
  rfl

end Tool

/-! ## Variables -/

namespace ContextVariable

/-- A variable that JSON can hold: its position is a number of 64 bits, and its default, if it has
one, can be told from none. -/
@[mk_iff]
structure Storable (v : ContextVariable) : Prop where
  position : v.position < 2 ^ 64
  default : v.default ≠ some .null

/-- The fields of a variable; absent ones and the position zero are left out. -/
def fields (v : ContextVariable) : List (String × Json) :=
  [("name", .string v.name), ("type", .string v.kind.name), ("question", .string v.question)] ++
    Json.field? "description" Json.string v.description ++ Json.field? "default" id v.default ++
    if v.position = 0 then [] else [("position", .int v.position)]

/-- The fields of a variable as they are written. -/
def written (v : ContextVariable) : Json.Fields :=
  Ordered.ofList v.fields

theorem names_fields (v : ContextVariable) : (v.fields.map Prod.fst).Sublist
    ["name", "type", "question", "description", "default", "position"] := by
  have hPosition : ((if v.position = 0 then [] else [("position", Json.int v.position)]).map
      Prod.fst).Sublist ["position"] := by
    split <;> simp
  simp only [fields, List.map_append]
  exact (((List.Sublist.refl ["name", "type", "question"]).append (Json.names_field? _ _ _)).append
    (Json.names_field? _ _ _)).append hPosition

theorem get?_written (v : ContextVariable) (key : String) :
    v.written.get? key =
      if key = "name" then some (.string v.name)
      else if key = "type" then some (.string v.kind.name)
      else if key = "question" then some (.string v.question)
      else if key = "description" then v.description.map .string
      else if key = "default" then v.default
      else if key = "position" then if v.position = 0 then none else some (.int v.position)
      else none := by
  rw [written, Ordered.get?_ofList_of_nodup ((names_fields v).nodup (by decide))]
  by_cases hPosition : v.position = 0 <;>
    simp only [fields, Ordered.get?_append, Ordered.get?_cons, Ordered.get?_nil, Json.get?_field?,
      hPosition, if_true, if_false, Option.map_id_fun, id] <;> grind

/-- What is left of a variable that is written and read again. -/
def reread (v : ContextVariable) : ContextVariable :=
  { v with default := v.default.filter fun value => !value.isNull }

theorem reread_eq_self_iff {v : ContextVariable} : v.reread = v ↔ v.default ≠ some .null := by
  obtain ⟨name, kind, question, description, default, position⟩ := v
  simp only [reread, mk.injEq, true_and, and_true]
  exact Json.filter_not_isNull_eq_self_iff

theorem ofJson?_toJson (empty : Json → Bool) (v : ContextVariable) :
    ofJson? empty v.toJson = if v.position < 2 ^ 64 then some v.reread else none := by
  have hRecord (names : List String) (least : Nat) :
      v.toJson.record? names least = some v.written := rfl
  have hName : v.written.required? "name" Json.string? = some v.name :=
    Json.Fields.required?_of_get? (get?_written v "name") rfl
  have hKind : v.written.required? "type" (fun kind =>
      (kind.choice? empty).bind ContextKind.ofName?) = some v.kind :=
    Json.Fields.required?_of_get? (get?_written v "type") (ContextKind.ofName?_name v.kind)
  have hQuestion : v.written.required? "question" Json.string? = some v.question :=
    Json.Fields.required?_of_get? (get?_written v "question") rfl
  have hDescription : v.written.optional? "description" Json.string? = some v.description :=
    Json.Fields.optional?_string (get?_written v "description")
  have hDefault : v.written.optional? "default" Json.any? = some v.reread.default :=
    Json.Fields.optional?_any (get?_written v "default")
  have hPosition : (v.written.defaulted? "position" 0 fun value =>
      value.uint64?.map UInt64.toNat) = if v.position < 2 ^ 64 then some v.position else none := by
    have hGet : v.written.get? "position" =
        if v.position = 0 then none else some (.int v.position) := get?_written v "position"
    rw [Json.Fields.defaulted?, hGet]
    by_cases hZero : v.position = 0
    · simp [hZero]
    · rw [if_neg hZero]
      exact Json.uint64?_int v.position
  simp only [ofJson?, hRecord, hName, hKind, hQuestion, hDescription, hDefault, hPosition,
    Option.bind_eq_bind, Option.bind_some]
  split <;> rfl

theorem ofJson?_toJson_eq_self_iff (empty : Json → Bool) (v : ContextVariable) :
    ofJson? empty v.toJson = some v ↔ v.Storable := by
  rw [ofJson?_toJson, storable_iff, ← reread_eq_self_iff]
  by_cases hFits : v.position < 2 ^ 64
  · simp only [hFits, if_true, true_and, Option.some.injEq]
  · simp only [hFits, if_false, false_and, reduceCtorEq]

end ContextVariable

/-! ## Nodes -/

/-- The kind of a node that was written, and the rest of it. -/
theorem untagged?_ofFields (inner : Bool) {kind : String} {entries : List (String × Json)}
    (hKind : kind ∈ nodeKinds) (hOther : "kind" ∉ entries.map Prod.fst) :
    untagged? inner (Json.ofFields (("kind", .string kind) :: entries)) =
      some (kind, Json.ofFields entries) := by
  have hGet : Ordered.get? "kind" (Ordered.ofList (("kind", Json.string kind) :: entries)) =
      some (.string kind) := by
    rw [Ordered.get?_ofList_cons hOther, if_pos rfl]
  have hKnown : nodeKind? inner (.string kind) = some kind := by
    rw [nodeKind?, if_pos (List.contains_iff_mem.2 hKind)]
  show (do
    let kind ← nodeKind? inner (← Ordered.get? "kind" (Ordered.ofList _))
    return (kind, Json.object (Ordered.erase "kind" (Ordered.ofList _)))) = _
  rw [hGet, Ordered.erase_ofList_cons hOther]
  simp only [Option.bind_eq_bind, Option.bind_some, hKnown]
  rfl

namespace Header

/-- The fields of a group as they are written. -/
def written (header : Header) (children : List Node) : Json.Fields :=
  Ordered.ofList (("children", .array (Node.toJsonAll children)) :: header.fields)

theorem names_fields (header : Header) :
    (header.fields.map Prod.fst).Sublist ["name", "layout", "level", "context"] := by
  rw [fields, List.map_append]
  exact (List.Sublist.refl ["name", "layout", "level"]).append (names_nonemptyField _ _ _)

theorem get?_written (header : Header) (children : List Node) (key : String) :
    (header.written children).get? key =
      if key = "children" then some (.array (Node.toJsonAll children))
      else if key = "name" then some (.string header.name)
      else if key = "layout" then some (.string header.layout.name)
      else if key = "level" then some (.int header.level.toNat)
      else if key = "context" then
        if header.context = [] then none
        else some (.array (header.context.map ContextVariable.toJson))
      else none := by
  have hNames : ((("children", Json.array (Node.toJsonAll children)) ::
      header.fields).map Prod.fst).Nodup :=
    ((names_fields header).cons_cons "children").nodup (by decide)
  rw [written, Ordered.get?_ofList_of_nodup hNames]
  simp only [fields, Ordered.get?_append, Ordered.get?_cons, Ordered.get?_nil, get?_nonemptyField]
  grind

theorem ofFields?_written_eq_self_iff (header : Header) (children : List Node) :
    ofFields? (header.written children) = some header ↔ ∀ v ∈ header.context, v.Storable := by
  have hName : (header.written children).required? "name" Json.string? = some header.name :=
    Json.Fields.required?_of_get? (get?_written header children "name") rfl
  have hLayout : (header.written children).defaulted? "layout" .tagged
      (Layout.ofJson? Json.isEmptyContent) = some header.layout :=
    (Json.Fields.defaulted?_of_get? (get?_written header children "layout") _).trans
      (Layout.ofName?_name header.layout)
  have hLevel : (header.written children).defaulted? "level" 0 Json.uint8? =
      some header.level :=
    (Json.Fields.defaulted?_of_get? (get?_written header children "level") _).trans
      (Json.uint8?_int header.level)
  have hContext : (header.written children).defaulted? "context" []
      (Json.list? (ContextVariable.ofJson? Json.isEmptyContent)) = some header.context ↔
        ∀ v ∈ header.context, v.Storable :=
    (Json.Fields.defaulted?_list_eq_iff (get?_written header children "context")).trans
      (forall₂_congr fun v _ => ContextVariable.ofJson?_toJson_eq_self_iff Json.isEmptyContent v)
  rw [← hContext]
  simp only [ofFields?, hName, hLayout, hLevel, Option.bind_eq_bind, Option.bind_some,
    Option.bind_eq_some_iff, Option.pure_def, Option.some.injEq]
  obtain ⟨name, layout, level, context⟩ := header
  simp only [mk.injEq, true_and, exists_eq_right]

end Header

namespace Node

/-- All variables of a group can be held by JSON. -/
def Stored : Node → Prop
  | .group header _ => ∀ v ∈ header.context, v.Storable
  | _ => True

/-- How a node is read that has its fields by name. -/
theorem ofJson?_of_untagged {inner : Bool} {value : Json} {kind : String} {fields : Json.Fields}
    (h : untagged? inner value = some (kind, .object fields)) :
    ofJson? inner value =
      if kind = "leaf" then do
        return .leaf (← fields.required? "value" Json.string?)
          (← fields.defaulted? "samples" [] (Json.list? Sample.ofJson?))
      else if kind = "lead" then do
        return .lead (← fields.required? "text" Json.string?)
      else
        (Header.ofFields? fields).bind fun header =>
          match fields.get? "children" with
          | none => some (.group header [])
          | some (.array items) => (ofJsonAll? true items).map (Node.group header)
          | some _ => none := by
  rw [ofJson?]
  split
  · rename_i hNone
    rw [h] at hNone
    cases hNone
  · rename_i own body hBody
    rw [h, Option.some.injEq, Prod.mk.injEq] at hBody
    obtain ⟨rfl, rfl⟩ := hBody
    refine if_congr Iff.rfl rfl (if_congr Iff.rfl rfl ?_)
    split
    · rename_i hNone
      cases hNone
    · rename_i other hOther
      obtain rfl : fields = other := Option.some.inj hOther
      show (Header.ofFields? fields).bind _ = (Header.ofFields? fields).bind _
      congr 1
      funext header
      split
      · rename_i hChildren
        simp only [hChildren, Option.pure_def]
      · rename_i items hChildren
        simp only [hChildren, Option.map_eq_bind]
        rfl
      · rename_i hNot hChildren
        simp only [hChildren]

theorem ofJson?_leaf (inner : Bool) (value : String) (samples : List Sample) :
    ofJson? inner (Node.leaf value samples).toJson = some (.leaf value samples) := by
  have hNames : (([("value", Json.string value)] ++
      nonemptyField "samples" Sample.toJson samples).map Prod.fst).Sublist ["value", "samples"] := by
    rw [List.map_append]
    exact (List.Sublist.refl ["value"]).append (names_nonemptyField _ _ _)
  have hGet (key : String) := Ordered.get?_ofList_of_nodup (hNames.nodup (by decide)) key
  simp only [get?_nonemptyField, Ordered.get?_append, Ordered.get?_cons, Ordered.get?_nil] at hGet
  have hUntagged := @untagged?_ofFields inner "leaf" _ (by decide) fun hMem =>
    absurd (hNames.subset hMem) (by decide)
  have hSamples : Json.Fields.defaulted? (Ordered.ofList ([("value", Json.string value)] ++
      nonemptyField "samples" Sample.toJson samples)) "samples" []
        (Json.list? Sample.ofJson?) = some samples := by
    refine (Json.Fields.defaulted?_list_eq_iff ?_).2 fun s _ => Sample.ofJson?_toJson s
    rw [hGet]
    cases samples <;> rfl
  have hValue : Json.Fields.required? (Ordered.ofList ([("value", Json.string value)] ++
      nonemptyField "samples" Sample.toJson samples)) "value" Json.string? = some value :=
    Json.Fields.required?_of_get? (hGet "value") rfl
  rw [toJson]
  refine (ofJson?_of_untagged hUntagged).trans ?_
  rw [if_pos rfl, hSamples, hValue]
  rfl

theorem ofJson?_lead (inner : Bool) (text : String) :
    ofJson? inner (Node.lead text).toJson = some (.lead text) := by
  have hUntagged := @untagged?_ofFields inner "lead" [("text", .string text)] (by decide)
    (by simp)
  have hText : Json.Fields.required? (Ordered.ofList [("text", Json.string text)]) "text"
      Json.string? = some text :=
    Json.Fields.required?_of_get? (Ordered.get?_ofList_of_nodup (by simp) "text") rfl
  rw [toJson]
  refine (ofJson?_of_untagged hUntagged).trans ?_
  rw [if_neg (by decide), if_pos rfl, hText]
  rfl

theorem ofJson?_group_eq_self_iff (inner : Bool) (header : Header) (children : List Node) :
    ofJson? inner (Node.group header children).toJson = some (.group header children) ↔
      (∀ v ∈ header.context, v.Storable) ∧
        ofJsonAll? true (toJsonAll children) = some children := by
  have hUntagged := @untagged?_ofFields inner "group"
    (("children", .array (toJsonAll children)) :: header.fields) (by decide) fun hMem =>
      absurd (((Header.names_fields header).cons_cons "children").subset hMem) (by decide)
  have hRead : ofJson? inner (Node.group header children).toJson =
      (Header.ofFields? (header.written children)).bind fun own =>
        (ofJsonAll? true (toJsonAll children)).map (Node.group own) := by
    rw [toJson, ofJson?_of_untagged hUntagged, if_neg (by decide), if_neg (by decide)]
    show ((Header.ofFields? (header.written children)).bind fun own =>
      match (header.written children).get? "children" with
      | none => some (.group own [])
      | some (.array items) => (ofJsonAll? true items).map (Node.group own)
      | some _ => none) = _
    rw [Header.get?_written, if_pos rfl]
  rw [hRead, ← Header.ofFields?_written_eq_self_iff header children]
  simp only [Option.bind_eq_some_iff, Option.map_eq_some_iff, group.injEq]
  constructor
  · rintro ⟨_, hHeader, _, hInner, rfl, rfl⟩
    exact ⟨hHeader, hInner⟩
  · rintro ⟨hHeader, hInner⟩
    exact ⟨_, hHeader, _, hInner, rfl, rfl⟩

mutual

/-- A node is read as it was written exactly if all variables in it can be held. -/
theorem ofJson?_toJson_eq_self_iff (inner : Bool) (node : Node) :
    ofJson? inner node.toJson = some node ↔ Everywhere Stored [node] := by
  cases node with
  | leaf value samples =>
      exact iff_of_true (ofJson?_leaf inner value samples) (everywhere_singleton rfl trivial)
  | lead text => exact iff_of_true (ofJson?_lead inner text) (everywhere_singleton rfl trivial)
  | group header children =>
      rw [ofJson?_group_eq_self_iff, everywhere_group,
        ofJsonAll?_toJsonAll_eq_self_iff true children]
      rfl

theorem ofJsonAll?_toJsonAll_eq_self_iff (inner : Bool) (nodes : List Node) :
    ofJsonAll? inner (toJsonAll nodes) = some nodes ↔ Everywhere Stored nodes := by
  cases nodes with
  | nil => exact iff_of_true (by rw [toJsonAll, ofJsonAll?]) everywhere_nil
  | cons node rest =>
      rw [everywhere_cons, ← ofJson?_toJson_eq_self_iff inner node,
        ← ofJsonAll?_toJsonAll_eq_self_iff inner rest, toJsonAll, ofJsonAll?]
      simp only [Option.bind_eq_bind, Option.bind_eq_some_iff, Option.pure_def,
        Option.some.injEq, List.cons.injEq]
      constructor
      · rintro ⟨_, hNode, _, hRest, rfl, rfl⟩
        exact ⟨hNode, hRest⟩
      · rintro ⟨hNode, hRest⟩
        exact ⟨_, hNode, _, hRest, rfl, rfl⟩

end

theorem everywhere_stored_iff {nodes : List Node} :
    Everywhere Stored nodes ↔
      ∀ header children, Stand [.group header children] nodes →
        ∀ v ∈ header.context, v.Storable := by
  constructor
  · exact fun h header children hStand => h _ hStand
  · intro h node hStand
    cases node with
    | group header children => exact h header children hStand
    | leaf value samples => trivial
    | lead text => trivial

end Node

/-! ## Decks -/

namespace Deck

/-- The deck or one of its groups, at any depth, declares the variable. -/
def HasVariable (d : Deck) (v : ContextVariable) : Prop :=
  v ∈ d.context ∨
    ∃ header children, Node.Stand [.group header children] d.children ∧ v ∈ header.context

theorem forall_hasVariable_iff {P : ContextVariable → Prop} {d : Deck} :
    (∀ v, d.HasVariable v → P v) ↔
      (∀ header children, Node.Stand [.group header children] d.children →
        ∀ v ∈ header.context, P v) ∧
        ∀ v ∈ d.context, P v := by
  constructor
  · intro h
    exact ⟨fun header children hStand v hMem => h v (.inr ⟨header, children, hStand, hMem⟩),
      fun v hMem => h v (.inl hMem)⟩
  · rintro ⟨hGroups, hOwn⟩ v (hMem | ⟨header, children, hStand, hMem⟩)
    · exact hOwn v hMem
    · exact hGroups header children hStand v hMem

/-- The fields of a deck; an absent title and an empty list of tools are left out. -/
def fields (d : Deck) : List (String × Json) :=
  [("name", .string d.name), ("layout", .string d.layout.name),
    ("children", .array (Node.toJsonAll d.children)),
    ("context", .array (d.context.map ContextVariable.toJson))] ++
    Json.field? "title" Json.string d.title ++ nonemptyField "tools" Tool.toJson d.tools

/-- The fields of a deck as they are written. -/
def written (d : Deck) : Json.Fields :=
  Ordered.ofList d.fields

theorem names_fields (d : Deck) : (d.fields.map Prod.fst).Sublist
    ["name", "layout", "children", "context", "title", "tools"] := by
  rw [fields, List.map_append, List.map_append]
  exact ((List.Sublist.refl ["name", "layout", "children", "context"]).append
    (Json.names_field? _ _ _)).append (names_nonemptyField _ _ _)

theorem get?_written (d : Deck) (key : String) :
    d.written.get? key =
      if key = "name" then some (.string d.name)
      else if key = "layout" then some (.string d.layout.name)
      else if key = "children" then some (.array (Node.toJsonAll d.children))
      else if key = "context" then some (.array (d.context.map ContextVariable.toJson))
      else if key = "title" then d.title.map .string
      else if key = "tools" then
        if d.tools = [] then none else some (.array (d.tools.map Tool.toJson))
      else none := by
  rw [written, Ordered.get?_ofList_of_nodup ((names_fields d).nodup (by decide))]
  simp only [fields, Ordered.get?_append, Ordered.get?_cons, Ordered.get?_nil,
    get?_nonemptyField, Json.get?_field?]
  grind

/-- **Decks survive being stored.** A deck that is written and read again is the same deck, with all
that is in it at every depth, exactly if no variable anywhere in it has `null` for its default and
no position is too large. -/
theorem ofJson?_toJson_iff (d : Deck) :
    ofJson? d.toJson = some d ↔ ∀ v, d.HasVariable v → v.Storable := by
  have hRecord (names : List String) (least : Nat) :
      d.toJson.record? names least = some d.written := rfl
  have hName : d.written.required? "name" Json.string? = some d.name :=
    Json.Fields.required?_of_get? (get?_written d "name") rfl
  have hTitle : d.written.optional? "title" Json.string? = some d.title :=
    Json.Fields.optional?_string (get?_written d "title")
  have hLayout : d.written.defaulted? "layout" .tagged (Layout.ofJson? Json.isNull) =
      some d.layout :=
    (Json.Fields.defaulted?_of_get? (get?_written d "layout") _).trans
      (Layout.ofName?_name d.layout)
  have hTools : d.written.defaulted? "tools" [] (Json.list? Tool.ofJson?) = some d.tools :=
    (Json.Fields.defaulted?_list_eq_iff (get?_written d "tools")).2 fun t _ => Tool.ofJson?_toJson t
  have hChildren : (d.written.defaulted? "children" [] fun children =>
      (items? children).bind (Node.ofJsonAll? false)) =
        Node.ofJsonAll? false (Node.toJsonAll d.children) :=
    Json.Fields.defaulted?_of_get? (get?_written d "children") _
  have hContext : d.written.defaulted? "context" []
      (Json.list? (ContextVariable.ofJson? Json.isNull)) =
        Json.list? (ContextVariable.ofJson? Json.isNull)
          (.array (d.context.map ContextVariable.toJson)) :=
    Json.Fields.defaulted?_of_get? (get?_written d "context") _
  have hRead : ofJson? d.toJson = some d ↔
      Node.ofJsonAll? false (Node.toJsonAll d.children) = some d.children ∧
        Json.list? (ContextVariable.ofJson? Json.isNull)
          (.array (d.context.map ContextVariable.toJson)) = some d.context := by
    simp only [ofJson?, hRecord, hName, hTitle, hLayout, hChildren, hContext, hTools,
      Option.bind_eq_bind, Option.bind_some, Option.bind_eq_some_iff, Option.pure_def,
      Option.some.injEq]
    obtain ⟨name, title, layout, children, context, tools⟩ := d
    simp only [mk.injEq, true_and, and_true]
    constructor
    · rintro ⟨_, hNodes, _, hOwn, rfl, rfl⟩
      exact ⟨hNodes, hOwn⟩
    · rintro ⟨hNodes, hOwn⟩
      exact ⟨_, hNodes, _, hOwn, rfl, rfl⟩
  rw [hRead, Node.ofJsonAll?_toJsonAll_eq_self_iff, Json.list?_map_eq_iff,
    Node.everywhere_stored_iff, forall_hasVariable_iff]
  simp only [ContextVariable.ofJson?_toJson_eq_self_iff]

end Deck

end Deckwright
