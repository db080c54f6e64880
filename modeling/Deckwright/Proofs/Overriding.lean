import Deckwright.Json.Printer
import Deckwright.Proofs.Records
import Deckwright.Request.Codec

/-!
# Overrides as a merge of objects

A payload and its overrides have typed fields and a map of further ones, and each kind is set in its
own way. Seen as objects there is only one rule (`Json.merge`): what the overrides have at the top
takes the place of what the payload has under the same name, and all else stays.

* `get?_fields`: what a payload has under a name, its further fields before its own.
* `get?_ownFields_override`: overriding on the typed fields.
* `fields_override`, `fields_overrideAll`: one step and a chain of steps, as maps.

Main result: `toJson_overrideAll`. A further field of the payload with the name of a typed field hides
that field, and no typed override reaches it (`Payload.covering`, `not_merged_covered`); where there
is none, the rule is the whole truth. What is read has no such field
(`Payload.avoids_of_ofJson?`, `Overrides.avoids_of_ofJson?`).
-/

namespace Deckwright

/-- The first object with the fields of the second one set in it; what is no object gives way. -/
def Json.merge : Json → Json → Json
  | .object fields, .object entries => .object (Ordered.update fields entries)
  | _, other => other

/-- No entry has one of the names. -/
def Ordered.Avoids {α : Type} (names : List String) (map : Ordered α) : Prop :=
  ∀ entry ∈ map, entry.1 ∉ names

instance {α : Type} (names : List String) (map : Ordered α) :
    Decidable (Ordered.Avoids names map) :=
  inferInstanceAs (Decidable (∀ entry ∈ map, entry.1 ∉ names))

/-- The fields of overrides as they are written. -/
def Overrides.fields (o : Overrides) : Json.Fields :=
  (Ordered.ofList o.ownFields).update o.extra

/-- The payload after overrides, the first ones first. -/
def Payload.overrideAll (p : Payload) (os : List Overrides) : Payload :=
  os.foldl Payload.override p

/-- The further fields that stand in place of fields which overrides can set. -/
def Payload.covering (p : Payload) : Json.Fields :=
  p.extra.filter fun field => Overrides.ownNames.contains field.1

namespace Ordered

variable {α : Type} {names : List String} {map : Ordered α} {key : String}

theorem Avoids.get?_eq_none (h : Avoids names map) (hKey : key ∈ names) : map.get? key = none :=
  get?_eq_none_iff.2 fun entry hMem hSame => h entry hMem (hSame ▸ hKey)

theorem Avoids.reverse (h : Avoids names map) : Avoids names map.reverse :=
  fun entry hMem => h entry (List.mem_reverse.1 hMem)

/-- What is set last may be set before as well. -/
theorem update_update_update (h : Sorted map) (entries more : List (String × α)) :
    ((map.update entries).update more).update entries = (map.update more).update entries := by
  apply Sorted.ext
  · exact sorted_update (sorted_update (sorted_update h entries) more) entries
  · exact sorted_update (sorted_update h more) entries
  · intro key
    rw [get?_update, get?_update, get?_update, get?_update, get?_update]
    cases get? key entries.reverse <;> simp

end Ordered

/-! ## What is written under a name -/

namespace Payload

theorem names_ownFields (p : Payload) : (p.ownFields.map Prod.fst).Sublist ownNames := by
  simp only [ownFields, List.map_append]
  exact ((((List.Sublist.refl _).append (Json.names_field? _ _ _)).append
    (Json.names_field? _ _ _)).append (names_nonemptyField _ _ _)).append (Json.names_field? _ _ _)

/-- Under a name a payload has its further field, else its own one. -/
theorem get?_fields (p : Payload) (key : String) :
    p.fields.get? key = (Ordered.get? key p.extra.reverse).or (Ordered.get? key p.ownFields) := by
  have hNames : (p.ownFields.map Prod.fst).Nodup :=
    (names_ownFields p).nodup (by decide)
  rw [fields, Ordered.get?_update, Ordered.get?_ofList_of_nodup hNames]

theorem sorted_fields (p : Payload) : Ordered.Sorted p.fields :=
  Ordered.sorted_update (Ordered.sorted_ofList _) _

end Payload

namespace Overrides

theorem names_ownFields (o : Overrides) : (o.ownFields.map Prod.fst).Sublist ownNames := by
  simp only [ownFields, List.map_append]
  exact (((Json.names_field? _ _ _).append (Json.names_field? _ _ _)).append
    (Json.names_field? _ _ _)).append (Json.names_field? _ _ _)

theorem get?_fields (o : Overrides) (key : String) :
    o.fields.get? key = (Ordered.get? key o.extra.reverse).or (Ordered.get? key o.ownFields) := by
  have hNames : (o.ownFields.map Prod.fst).Nodup :=
    (names_ownFields o).nodup (by decide)
  rw [fields, Ordered.get?_update, Ordered.get?_ofList_of_nodup hNames]

theorem sorted_fields (o : Overrides) : Ordered.Sorted o.fields :=
  Ordered.sorted_update (Ordered.sorted_ofList _) _

theorem get?_ownFields_of_not_mem (o : Overrides) {key : String} (h : key ∉ ownNames) :
    Ordered.get? key o.ownFields = none :=
  Ordered.get?_eq_none_iff.2 fun entry hMem hSame =>
    h ((names_ownFields o).subset (List.mem_map.2 ⟨entry, hMem, hSame⟩))

end Overrides

/-! ## What is read -/

theorem avoids_otherFields (names : List String) (fields : Json.Fields) :
    Ordered.Avoids names (otherFields names fields) := by
  intro field hMem
  obtain ⟨-, hOther⟩ := List.mem_filter.1 hMem
  simpa using hOther

theorem Overrides.avoids_of_ofJson? {value : Json} {o : Overrides} (h : ofJson? value = some o) :
    Ordered.Avoids ownNames o.extra := by
  simp only [ofJson?, Option.bind_eq_bind, Option.bind_eq_some_iff, Option.pure_def,
    Option.some.injEq] at h
  obtain ⟨fields, -, model, -, temperature, -, tokens, -, messages, -, rfl⟩ := h
  exact avoids_otherFields ownNames fields

theorem Payload.avoids_of_ofJson? {value : Json} {p : Payload} (h : ofJson? value = some p) :
    Ordered.Avoids Overrides.ownNames p.extra := by
  simp only [ofJson?, Option.bind_eq_bind, Option.bind_eq_some_iff, Option.pure_def,
    Option.some.injEq] at h
  obtain ⟨fields, -, model, -, messages, -, temperature, -, tokens, -, tools, -, metadata, -,
    rfl⟩ := h
  intro field hMem hOwn
  have hNames : Overrides.ownNames ⊆ ownNames := by decide
  exact avoids_otherFields ownNames fields field hMem (hNames hOwn)

/-! ## One step -/

namespace Payload

/-- A typed field is that of the overrides if they set it. -/
theorem get?_ownFields_override (p : Payload) (o : Overrides) (key : String) :
    Ordered.get? key (p.override o).ownFields =
      (Ordered.get? key o.ownFields).or (Ordered.get? key p.ownFields) := by
  simp only [ownFields, Overrides.ownFields, override, Ordered.get?_append, Ordered.get?_cons,
    Ordered.get?_nil, Json.get?_field?]
  by_cases hModel : key = "model"
  · subst hModel
    cases o.model <;> simp
  by_cases hMessages : key = "messages"
  · subst hMessages
    cases o.messages <;> simp
  by_cases hTemperature : key = "temperature"
  · subst hTemperature
    cases o.temperature <;> simp
  by_cases hTokens : key = "max_tokens"
  · subst hTokens
    cases o.maxTokens <;> simp
  · simp [hModel, hMessages, hTemperature, hTokens]

variable {p : Payload} {o : Overrides}

theorem sorted_override (hMap : Ordered.Sorted p.extra) (o : Overrides) :
    Ordered.Sorted (p.override o).extra :=
  Ordered.sorted_update hMap o.extra

theorem sorted_covering (hMap : Ordered.Sorted p.extra) : Ordered.Sorted p.covering :=
  hMap.filter _

theorem get?_covering (p : Payload) (key : String) :
    p.covering.get? key =
      if key ∈ Overrides.ownNames then Ordered.get? key p.extra else none := by
  rw [covering, Ordered.get?_filter Overrides.ownNames.contains]
  simp only [List.contains_iff_mem]

/-- Further fields of other names hide nothing. -/
theorem covering_override (hMap : Ordered.Sorted p.extra)
    (hNames : Ordered.Avoids Overrides.ownNames o.extra) :
    (p.override o).covering = p.covering := by
  apply Ordered.Sorted.ext (sorted_covering (sorted_override hMap o)) (sorted_covering hMap)
  intro key
  rw [get?_covering, get?_covering]
  by_cases hKey : key ∈ Overrides.ownNames
  · rw [if_pos hKey, if_pos hKey]
    show (p.extra.update o.extra).get? key = _
    rw [Ordered.get?_update, hNames.reverse.get?_eq_none hKey, Option.none_or]
  · rw [if_neg hKey, if_neg hKey]

/-- What overrides have at the top takes the place of what the payload has, where it is not
hidden. -/
theorem fields_override (hMap : Ordered.Sorted p.extra)
    (hNames : Ordered.Avoids Overrides.ownNames o.extra) :
    (p.override o).fields = (p.fields.update o.fields).update p.covering := by
  apply Ordered.Sorted.ext (sorted_fields _)
  · exact Ordered.sorted_update (Ordered.sorted_update (sorted_fields p) _) _
  intro key
  have hExtra : Ordered.get? key (p.override o).extra.reverse =
      (Ordered.get? key o.extra.reverse).or (Ordered.get? key p.extra) := by
    rw [(sorted_override hMap o).get?_reverse]
    exact Ordered.get?_update key p.extra o.extra
  rw [Ordered.get?_update, Ordered.get?_update, (sorted_covering hMap).get?_reverse,
    (Overrides.sorted_fields o).get?_reverse, get?_covering, get?_fields, get?_fields,
    Overrides.get?_fields, hExtra, hMap.get?_reverse, get?_ownFields_override]
  by_cases hKey : key ∈ Overrides.ownNames
  · rw [if_pos hKey, hNames.reverse.get?_eq_none hKey]
    cases Ordered.get? key p.extra <;> simp
  · rw [if_neg hKey, Overrides.get?_ownFields_of_not_mem o hKey]
    simp [Option.or_assoc]

/-- A payload has its further fields in place of its own ones already. -/
theorem fields_update_covering (hMap : Ordered.Sorted p.extra) :
    p.fields.update p.covering = p.fields := by
  apply Ordered.Sorted.ext (Ordered.sorted_update (sorted_fields p) _) (sorted_fields p)
  intro key
  rw [Ordered.get?_update, (sorted_covering hMap).get?_reverse, get?_covering, get?_fields,
    hMap.get?_reverse]
  by_cases hKey : key ∈ Overrides.ownNames
  · rw [if_pos hKey]
    cases Ordered.get? key p.extra <;> simp
  · rw [if_neg hKey, Option.none_or]

/-! ## Chains of overrides -/

theorem fields_overrideAll (hMap : Ordered.Sorted p.extra) {os : List Overrides}
    (hNames : ∀ o ∈ os, Ordered.Avoids Overrides.ownNames o.extra) :
    (p.overrideAll os).fields =
      (p.fields.update (os.flatMap Overrides.fields)).update p.covering := by
  induction os generalizing p with
  | nil => exact (fields_update_covering hMap).symm
  | cons o rest ih =>
      have hFirst := hNames o List.mem_cons_self
      have hRest := ih (sorted_override hMap o) fun next hMem =>
        hNames next (List.mem_cons_of_mem o hMem)
      have hSorted : Ordered.Sorted (p.fields.update o.fields) :=
        Ordered.sorted_update (sorted_fields p) _
      calc (p.overrideAll (o :: rest)).fields
          = ((p.override o).fields.update (rest.flatMap Overrides.fields)).update p.covering := by
            rw [← covering_override hMap hFirst, ← hRest]
            rfl
        _ = ((p.fields.update o.fields).update (rest.flatMap Overrides.fields)).update
              p.covering := by
            rw [fields_override hMap hFirst, Ordered.update_update_update hSorted]
        _ = (p.fields.update ((o :: rest).flatMap Overrides.fields)).update p.covering := by
            rw [List.flatMap_cons, Ordered.update_append]

end Payload

theorem Json.foldl_merge (fields : Json.Fields) (os : List Overrides) :
    (os.map Overrides.toJson).foldl Json.merge (.object fields) =
      .object (fields.update (os.flatMap Overrides.fields)) := by
  induction os generalizing fields with
  | nil => rfl
  | cons o rest ih =>
      rw [List.map_cons, List.foldl_cons, List.flatMap_cons, Ordered.update_append, ← ih]
      rfl

/--
**Overrides are a shallow merge.** The object of a payload after overrides is the object of the
payload with the entries of the overrides set in it, one after the other, if no further field of the
payload has the name of a field that overrides have a type for. In any case such a field stays as it
is and the rest is merged. The same overrides once more change nothing.
-/
theorem toJson_overrideAll (p : Payload) (os : List Overrides) (hMap : Ordered.Sorted p.extra)
    (hNames : ∀ o ∈ os, Ordered.Avoids Overrides.ownNames o.extra) :
    (Ordered.Avoids Overrides.ownNames p.extra →
      (p.overrideAll os).toJson = (os.map Overrides.toJson).foldl Json.merge p.toJson) ∧
    (p.overrideAll os).toJson =
      ((os.map Overrides.toJson).foldl Json.merge p.toJson).merge (.object p.covering) ∧
    (p.overrideAll (os ++ os)).toJson = (p.overrideAll os).toJson := by
  have hFields := Payload.fields_overrideAll hMap hNames
  have hMerged : (os.map Overrides.toJson).foldl Json.merge p.toJson =
      .object (p.fields.update (os.flatMap Overrides.fields)) :=
    Json.foldl_merge p.fields os
  rw [hMerged]
  refine ⟨fun hOwn => ?_, congrArg Json.object hFields, congrArg Json.object ?_⟩
  · have hNone : p.covering = [] := by
      rw [Payload.covering, List.filter_eq_nil_iff]
      intro field hMem
      rw [List.contains_iff_mem]
      exact hOwn field hMem
    rw [hNone] at hFields
    exact congrArg Json.object hFields
  · have hTwice : ∀ o ∈ os ++ os, Ordered.Avoids Overrides.ownNames o.extra := by
      intro o hMem
      exact (List.mem_append.1 hMem).elim (hNames o) (hNames o)
    rw [Payload.fields_overrideAll hMap hTwice, hFields, List.flatMap_append,
      Ordered.update_append]
    congr 1
    exact Ordered.update_update_update (Payload.sorted_fields p) _ []

/-- A payload with a further field that has the name of a typed one. -/
def coveredPayload : Payload :=
  { model := "m", messages := [], extra := [("model", .string "x")] }

/-- The further field stays where the merge would set the model. -/
theorem not_merged_covered :
    (coveredPayload.overrideAll [.ofModel "y"]).toJson.compact =
        "\x7b\"messages\":[],\"model\":\"x\"\x7d" ∧
      (([Overrides.ofModel "y"].map Overrides.toJson).foldl Json.merge
          coveredPayload.toJson).compact = "\x7b\"messages\":[],\"model\":\"y\"\x7d" ∧
      ¬ ∀ (p : Payload) (os : List Overrides), Ordered.Sorted p.extra →
        (∀ o ∈ os, Ordered.Avoids Overrides.ownNames o.extra) →
        (p.overrideAll os).toJson = (os.map Overrides.toJson).foldl Json.merge p.toJson := by
  have hKept : (coveredPayload.overrideAll [.ofModel "y"]).toJson.compact =
      "\x7b\"messages\":[],\"model\":\"x\"\x7d" := by decide +kernel
  have hMerged : (([Overrides.ofModel "y"].map Overrides.toJson).foldl Json.merge
      coveredPayload.toJson).compact = "\x7b\"messages\":[],\"model\":\"y\"\x7d" := by
    decide +kernel
  refine ⟨hKept, hMerged, fun hLaw => ?_⟩
  have hNames : ∀ o ∈ [Overrides.ofModel "y"], Ordered.Avoids Overrides.ownNames o.extra := by decide
  have hSame := congrArg Json.compact (hLaw coveredPayload _ (by decide) hNames)
  rw [hKept, hMerged] at hSame
  exact absurd hSame (by decide)

/-- A payload with a tool, a note and a further field. -/
def notedPayload : Payload :=
  { model := "m"
    messages := [.system "s"]
    tools := [{ tool := { name := "t" } }]
    metadata := some { deckId := "d" }
    extra := [("seed", .int 7)] }

/-- Overrides of typed fields, of generated ones and of those that earlier overrides set. -/
def secondThoughts : List Overrides :=
  [{ model := some "m2", extra := [("tools", .array []), ("top_p", .int 1)] },
    { maxTokens := some 5
      messages := some []
      extra := [("bfMetadata", .null), ("top_p", .int 0)] }]

/-- The tools and the note are replaced as well, and the last value of a field counts. -/
theorem toJson_overrideAll_noted :
    Ordered.Sorted notedPayload.extra ∧
    (∀ o ∈ secondThoughts, Ordered.Avoids Overrides.ownNames o.extra) ∧
    Ordered.Avoids Overrides.ownNames notedPayload.extra ∧
    (notedPayload.overrideAll secondThoughts).toJson =
      (secondThoughts.map Overrides.toJson).foldl Json.merge notedPayload.toJson ∧
    (notedPayload.overrideAll secondThoughts).toJson.compact =
      "\x7b\"bfMetadata\":null,\"max_tokens\":5,\"messages\":[],\"model\":\"m2\"," ++
        "\"seed\":7,\"tools\":[],\"top_p\":0\x7d" := by
  have hMap : Ordered.Sorted notedPayload.extra := by decide
  have hNames : ∀ o ∈ secondThoughts, Ordered.Avoids Overrides.ownNames o.extra := by decide
  have hOwn : Ordered.Avoids Overrides.ownNames notedPayload.extra := by decide
  obtain ⟨hMerge, -, -⟩ := toJson_overrideAll notedPayload secondThoughts hMap hNames
  exact ⟨hMap, hNames, hOwn, hMerge hOwn, by decide +kernel⟩

end Deckwright
