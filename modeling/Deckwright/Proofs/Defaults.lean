import Deckwright.Proofs.SortedWalk

/-!
# Defaults

A variable whose name has no value gets the default of its last declaration, and nothing else
changes (`get?_withDefaults`). What counts as no value is decided twice: `Deck.withDefaults` fills a
name that is missing, a message is also left out for a `null`. So a `null` that is given is neither
filled nor asked for.

* `ContextVariable.get?_foldl_fill`: filling goes by the first default under a name, in whatever
  list of variables.
* `Deck.findSome?_allContext`: in the variables of a deck that is the default of the last
  declaration.

Main result: `Deck.fills_iff`, when every default that can be shown is shown.
-/

namespace Deckwright

variable {d : Deck} {values : Json.Fields}

namespace ContextVariable

/-- The values with the default of a variable, if there is one and the variable has no value. -/
def fill (filled : Json.Fields) (v : ContextVariable) : Json.Fields :=
  match filled.has v.name, v.default with
  | false, some value => filled.insert v.name value
  | _, _ => filled

/-- The default of a variable, for its own name. -/
def defaultFor (name : String) (v : ContextVariable) : Option Json :=
  if v.name = name then v.default else none

theorem get?_fill (filled : Json.Fields) (v : ContextVariable) (name : String) :
    (v.fill filled).get? name = (filled.get? name).or (v.defaultFor name) := by
  rw [fill, Ordered.has, defaultFor]
  by_cases hName : v.name = name
  · subst hName
    rw [if_pos rfl]
    cases hValue : filled.get? v.name with
    | some value => exact hValue
    | none =>
        cases v.default with
        | none => exact hValue
        | some default => exact (Ordered.get?_insert _ _ _ _).trans (if_pos rfl)
  · rw [if_neg hName, Option.or_none]
    cases (filled.get? v.name).isSome with
    | true => rfl
    | false =>
        cases v.default with
        | none => rfl
        | some default => exact (Ordered.get?_insert _ _ _ _).trans (if_neg (Ne.symm hName))

theorem get?_foldl_fill (vars : List ContextVariable) (values : Json.Fields) (name : String) :
    (vars.foldl fill values).get? name =
      (values.get? name).or (vars.findSome? (defaultFor name)) := by
  induction vars generalizing values with
  | nil => exact Option.or_none.symm
  | cons v rest ih =>
      rw [List.foldl_cons, ih, get?_fill, Option.or_assoc, List.findSome?_cons]
      cases v.defaultFor name <;> rfl

theorem findSome?_defaultFor {vars : List ContextVariable} {name : String}
    (h : name ∉ vars.map ContextVariable.name) : vars.findSome? (defaultFor name) = none := by
  rw [List.findSome?_eq_none_iff]
  intro v hMem
  refine if_neg fun hName : v.name = name => h ?_
  exact hName ▸ List.mem_map_of_mem hMem

end ContextVariable

namespace Deck

theorem withDefaults_eq (d : Deck) (values : Json.Fields) :
    d.withDefaults values = d.allContext.foldl ContextVariable.fill values := rfl

/-- The last declaration of a name in the walk over the scopes of a deck. -/
def lastDeclared (d : Deck) (name : String) : Option ContextVariable :=
  d.declarations.reverse.find? (·.name == name)

/-- The default of the last declaration of a name. -/
def defaultOf (d : Deck) (name : String) : Option Json :=
  (d.lastDeclared name).bind ContextVariable.default

/-- A variable of the deck has the default of its last declaration. -/
theorem defaultOf_of_mem {v : ContextVariable} (h : v ∈ d.allContext) :
    d.defaultOf v.name = v.default := by
  have hDeclared : declaredAs d.declarations v.name = some v := declaredAs_of_mem h
  simp only [declaredAs, Option.bind_eq_bind, Option.bind_eq_some_iff] at hDeclared
  obtain ⟨first, -, last, hLast, hSame⟩ := hDeclared
  obtain rfl : last.atPosition first.position = v := Option.some.inj hSame
  rw [defaultOf, lastDeclared, hLast]
  rfl

/-- Each name stands once among the variables of a deck, with the default of its last
declaration. -/
theorem findSome?_allContext (d : Deck) (name : String) :
    d.allContext.findSome? (ContextVariable.defaultFor name) = d.defaultOf name := by
  by_cases hDeclared : name ∈ d.allContext.map ContextVariable.name
  · obtain ⟨before, v, after, hSplit, rfl, hBefore, hAfter⟩ :=
      exists_only (nodup_names_mergedContext d.declarations) hDeclared
    have hAll : d.allContext = before ++ v :: after := hSplit
    have hMem : v ∈ d.allContext := hAll ▸ List.mem_append_right before List.mem_cons_self
    rw [defaultOf_of_mem hMem, hAll, List.findSome?_append,
      ContextVariable.findSome?_defaultFor hBefore, Option.none_or, List.findSome?_cons,
      ContextVariable.findSome?_defaultFor hAfter, ContextVariable.defaultFor, if_pos rfl]
    cases v.default <;> rfl
  · have hNone : d.lastDeclared name = none := by
      rw [lastDeclared, List.find?_eq_none]
      intro w hMem hName
      refine hDeclared (mem_names_mergedContext.2 ?_)
      exact List.mem_map.2 ⟨w, List.mem_reverse.1 hMem, beq_iff_eq.1 hName⟩
    rw [ContextVariable.findSome?_defaultFor hDeclared, defaultOf, hNone, Option.bind_none]

/-- The value of a name is the one that is given, else the default. -/
theorem get?_withDefaults (d : Deck) (values : Json.Fields) (name : String) :
    (d.withDefaults values).get? name = (values.get? name).or (d.defaultOf name) := by
  rw [withDefaults_eq, ContextVariable.get?_foldl_fill, findSome?_allContext]

end Deck

/-! ## What is asked for -/

/-- The answer to a variable that its default stands in for: `null` is none. -/
def ContextVariable.answer? (values : Json.Fields) (v : ContextVariable) : Option Json :=
  ((values.get? v.name).or v.default).filter fun value => !value.isNull

/-- The variable has a default that can be an answer. -/
def ContextVariable.HasDefault (v : ContextVariable) : Prop :=
  ∃ value, v.default = some value ∧ value.isNull = false

namespace Deck

theorem messages_withDefaults {v : ContextVariable} (h : v ∈ d.allContext)
    (values : Json.Fields) :
    v.messages (d.withDefaults values) = (v.answer? values).elim [] fun value =>
      [.assistant v.question, .user value.messageText] := by
  rw [messages_eq, shownValue, get?_withDefaults, defaultOf_of_mem h]
  rfl

/-- A `null` that is given is what keeps a default from being shown. -/
theorem answer?_eq_none_iff {v : ContextVariable} (h : v.HasDefault) (values : Json.Fields) :
    v.answer? values = none ↔ values.get? v.name = some .null := by
  obtain ⟨default, hDefault, hShown⟩ := h
  rw [ContextVariable.answer?, hDefault]
  cases values.get? v.name with
  | none => simp [hShown]
  | some value => cases value <;> simp [Json.isNull]

/-- Defaults fill all that the values leave empty: each variable with a default is asked for and
answered, and the values that are not `null` stay. -/
def Fills (d : Deck) (values : Json.Fields) : Prop :=
  (∀ v ∈ d.allContext, v.HasDefault → ∃ value : Json,
    v.messages (d.withDefaults values) = [.assistant v.question, .user value.messageText]) ∧
  ∀ name value, values.get? name = some value → value.isNull = false →
    (d.withDefaults values).get? name = some value

theorem get?_withDefaults_of_some {name : String} {value : Json}
    (h : values.get? name = some value) : (d.withDefaults values).get? name = some value := by
  rw [get?_withDefaults, h, Option.some_or]

/--
**Defaults.** With the defaults of a deck, a name has the value that is given for it, else the
default of its last declaration. The messages are the questions of the variables whose value is not
`null` then. So a variable with a default is passed over exactly if its value is given as `null`,
and the defaults fill all that the values leave empty exactly if no such variable is given as
`null`.
-/
theorem fills_iff (d : Deck) (values : Json.Fields) :
    (∀ name, (d.withDefaults values).get? name = (values.get? name).or (d.defaultOf name)) ∧
    (d.contextMessages (d.withDefaults values) =
      d.allContext.flatMap fun v => (v.answer? values).elim [] fun value =>
        [.assistant v.question, .user value.messageText]) ∧
    (∀ v ∈ d.allContext, v.HasDefault →
      (v.messages (d.withDefaults values) = [] ↔ values.get? v.name = some .null)) ∧
    (d.Fills values ↔ ∀ v ∈ d.allContext, v.HasDefault → values.get? v.name ≠ some .null) := by
  have hPassed : ∀ v ∈ d.allContext, v.HasDefault →
      (v.messages (d.withDefaults values) = [] ↔ values.get? v.name = some .null) := by
    intro v hMem hDefault
    rw [messages_withDefaults hMem, ← answer?_eq_none_iff hDefault]
    cases v.answer? values <;> simp
  refine ⟨d.get?_withDefaults values,
    List.flatMap_congr fun v hMem => messages_withDefaults hMem values, hPassed, ?_⟩
  constructor
  · rintro ⟨hAsked, -⟩ v hMem hDefault hNull
    obtain ⟨value, hMessages⟩ := hAsked v hMem hDefault
    rw [(hPassed v hMem hDefault).2 hNull] at hMessages
    cases hMessages
  · intro hGiven
    refine ⟨fun v hMem hDefault => ?_, fun name value hValue _ => get?_withDefaults_of_some hValue⟩
    rw [messages_withDefaults hMem]
    cases hAnswer : v.answer? values with
    | none =>
        exact absurd ((answer?_eq_none_iff hDefault values).1 hAnswer) (hGiven v hMem hDefault)
    | some value => exact ⟨value, rfl⟩

end Deck

/-- A deck that asks for a tone, which is calm if nothing else is said. -/
def toneDeck : Deck :=
  { name := "d"
    context :=
      [{ name := "tone", kind := .string, question := "Tone?", default := some (.string "calm") }] }

/-- A tone that is given as `null` is neither filled nor asked for, while a missing one is. -/
theorem not_fills_null :
    toneDeck.contextMessages (toneDeck.withDefaults []) = [.assistant "Tone?", .user "calm"] ∧
    toneDeck.contextMessages (toneDeck.withDefaults [("tone", .null)]) = [] ∧
    ¬ toneDeck.Fills [("tone", .null)] := by
  refine ⟨by decide +kernel, by decide +kernel, ?_⟩
  rintro ⟨hAsked, -⟩
  obtain ⟨value, hMessages⟩ := hAsked _ (List.mem_singleton.2 rfl) ⟨.string "calm", rfl, rfl⟩
  cases hMessages

end Deckwright
