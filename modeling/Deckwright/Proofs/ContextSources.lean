import Deckwright.Command.Options
import Deckwright.Proofs.Defaults

/-!
# Where the value of a variable comes from

A command line gives values in two ways, by assignments and by a JSON object, and it may ask for
the defaults of the deck. `assigned`, `listed` and `Deck.defaultOf` say what each of the three has
under a name, without the maps that they are put into one after the other: of several assignments to
a name the last one counts, and so does the last declaration.

* `get?_givenContext`, `get?_context`: the layers of the map, from the object up.

Main result: `context_of_options`, which of the three wins.
-/

namespace Deckwright

/-- A key has the value of the first entry that is its own. -/
theorem Ordered.get?_eq_find? {α : Type} (key : String) (entries : Ordered α) :
    entries.get? key = (entries.find? (·.1 == key)).map Prod.snd := by
  induction entries with
  | nil => rfl
  | cons entry rest ih =>
      obtain ⟨k, value⟩ := entry
      rw [get?_cons, ih]
      by_cases hKey : key = k
      · rw [if_pos hKey, List.find?_cons_of_pos (by simpa using hKey.symm)]
        rfl
      · rw [if_neg hKey, List.find?_cons_of_neg (by simpa using Ne.symm hKey)]

namespace RenderArgs

variable {args : RenderArgs} {d : Deck} {values : Json.Fields}

/-- The value of the last assignment to a name. -/
def assigned (args : RenderArgs) (name : String) : Option Json :=
  (args.assignments.reverse.find? (·.1 == name)).map Prod.snd

/-- The value of a name in the JSON object. -/
def listed (args : RenderArgs) (name : String) : Option Json :=
  match args.contextJson.bind Json.read? with
  | some (.object fields) => Ordered.get? name fields
  | _ => none

/-- The default of a name, if defaults are asked for. -/
def defaulted (args : RenderArgs) (d : Deck) (name : String) : Option Json :=
  if args.useDefaults then d.defaultOf name else none

theorem get?_jsonContext (h : args.jsonContext = .ok values) (name : String) :
    values.get? name = args.listed name := by
  rw [jsonContext] at h
  rw [listed]
  split at h
  · rename_i hText
    cases h
    rw [hText]
    rfl
  · rename_i text hText
    rw [hText, Option.bind_some]
    split at h
    · cases h
    · rename_i fields hRead
      cases h
      simp only [hRead]
    · cases h

theorem get?_givenContext (h : args.givenContext = .ok values) (name : String) :
    values.get? name = (args.assigned name).or (args.listed name) := by
  rw [givenContext] at h
  cases hJson : args.jsonContext with
  | error e =>
      rw [hJson] at h
      cases h
  | ok fields =>
      rw [hJson] at h
      cases h
      rw [Ordered.get?_update, get?_jsonContext hJson, Ordered.get?_eq_find?]
      rfl

theorem get?_context (h : args.context d = .ok values) (name : String) :
    values.get? name =
      ((args.assigned name).or (args.listed name)).or (args.defaulted d name) := by
  rw [context] at h
  cases hGiven : args.givenContext with
  | error e =>
      rw [hGiven] at h
      cases h
  | ok given =>
      rw [hGiven] at h
      cases h
      rw [defaulted, ← get?_givenContext hGiven]
      dsimp only
      split
      · exact d.get?_withDefaults given name
      · exact Option.or_none.symm

theorem context_withModel (model : Option String) (options : RenderOptions) :
    (options.withModel model).context = options.context := by
  cases model <;> rfl

/-- The options have the values of the command line, if it has any. -/
theorem options_eq_ok_iff {c : Config} {values : Json.Fields} :
    (∃ options, args.options c d = .ok options ∧ options.context = values) ↔
      args.context d = .ok values := by
  rw [options]
  cases args.context d with
  | error e => simp [Except.map]
  | ok found => simp [Except.map, context_withModel]

/--
**Where a value comes from.** Where a command line gives options for a deck, the value of a name is
that of the last assignment to it, else the one in the JSON object, else, if defaults are asked for,
the default of its last declaration in the walk over the deck; a name for which none of the three
has a value has none. If defaults are not asked for, the values are the same for all decks and all
settings.
-/
theorem context_of_options {args : RenderArgs} {c : Config} {d : Deck} {options : RenderOptions}
    (h : args.options c d = .ok options) :
    (∀ name, options.context.get? name =
      ((args.assigned name).or (args.listed name)).or
        (if args.useDefaults then d.defaultOf name else none)) ∧
    (args.useDefaults = false → ∀ c' d', ∃ other,
      args.options c' d' = .ok other ∧ other.context = options.context) := by
  have hContext : args.context d = .ok options.context := options_eq_ok_iff.1 ⟨options, h, rfl⟩
  refine ⟨get?_context hContext, fun hFlag c' d' => options_eq_ok_iff.2 ?_⟩
  rw [← hContext, context, context, hFlag]
  rfl

/-- A command line that gives one name three times and a second one in the object only, and asks
for defaults. -/
def layeredArgs : RenderArgs :=
  { assignments := [("who", .string "Bo"), ("who", .string "Ada")]
    contextJson := some "\x7b\"team\": 3, \"who\": null\x7d"
    useDefaults := true }

/-- A deck that declares two names twice, the second one with a default that is taken back. -/
def layeredDeck : Deck :=
  { name := "d"
    children := [.group { name := "G", context :=
      [{ name := "tone", kind := .string, question := "Tone?", default := some (.string "calm") },
        { name := "mood", kind := .string, question := "Mood?" }] } []]
    context :=
      [{ name := "tone", kind := .string, question := "Tone?", default := some (.string "terse") },
        { name := "mood", kind := .string, question := "Mood?", default := some (.string "good") },
        { name := "team", kind := .number, question := "Team?", default := some (.int 1) }] }

/-- Each of the three sources wins once, and the default that is taken back is none. -/
theorem context_of_options_layered :
    ∃ options, layeredArgs.options {} layeredDeck = .ok options ∧
      ["who", "team", "tone", "mood"].map
          (fun name => (options.context.get? name).map Json.compact) =
        [some "\"Ada\"", some "3", some "\"calm\"", none] := by
  have hOk : (layeredArgs.options {} layeredDeck).toBool = true := by decide +kernel
  obtain ⟨options, hOptions⟩ := Document.exists_ok_of_toBool hOk
  obtain ⟨hValues, -⟩ := context_of_options hOptions
  refine ⟨options, hOptions, ?_⟩
  simp only [hValues]
  decide +kernel

end RenderArgs

end Deckwright
