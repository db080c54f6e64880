import Deckwright.Proofs.Overriding
import Deckwright.Render
import Deckwright.Telemetry.Transport

/-!
# The note on a request

The note for telemetry is one field of a request, and a caller may set a further field of the same
name. Whatever is there goes before the request does (`erase_fields_noted`). What is handed on
beside the request depends on the way: a payload gives its own note, an object gives what it has
under the name (`metadata_strip_toJson`), as far as it reads as a note. A note that is written and
read again is the same but for attributes that are `null` (`Metadata.ofJson?_toJson`).

Main results: `body_detach_render`, the provider sees nothing of telemetry; `strip_eq_detach_iff`,
when the two ways agree.
-/

namespace Deckwright

open Telemetry

/-- The payload with another note. -/
def Payload.noted (p : Payload) (note : Option Metadata) : Payload :=
  { p with metadata := note }

namespace Payload

theorem get?_ownFields_noted (p : Payload) (note : Option Metadata) {key : String}
    (h : key ≠ metadataField) :
    Ordered.get? key (p.noted note).ownFields = Ordered.get? key p.ownFields := by
  have hNone (other : Option Metadata) :
      Ordered.get? key (Json.field? "bfMetadata" Metadata.toJson other) = none := by
    rw [Json.get?_field?]
    exact if_neg h
  simp only [ownFields, noted, Ordered.get?_append, hNone]

/-- Only one field tells of the note. -/
theorem erase_fields_noted (p : Payload) (note : Option Metadata) :
    Ordered.erase metadataField (p.noted note).fields = Ordered.erase metadataField p.fields := by
  apply Ordered.Sorted.ext ((sorted_fields _).erase _) ((sorted_fields p).erase _)
  intro key
  rw [Ordered.get?_erase, Ordered.get?_erase]
  by_cases hKey : key = metadataField
  · rw [if_pos hKey, if_pos hKey]
  · rw [if_neg hKey, if_neg hKey, get?_fields, get?_fields, get?_ownFields_noted p note hKey]
    rfl

theorem get?_metadataField_ownFields (p : Payload) :
    Ordered.get? metadataField p.ownFields = p.metadata.map Metadata.toJson := by
  have hTools : Ordered.get? metadataField (nonemptyField "tools" ApiTool.toJson p.tools) = none :=
    (get?_nonemptyField _ _ _ _).trans (if_neg fun h => absurd h.1 (by decide))
  simp only [ownFields, Ordered.get?_append, Ordered.get?_cons, Ordered.get?_nil, hTools,
    Json.get?_field?]
  simp [metadataField]

end Payload

namespace Metadata

/-- What is left of a note that is written and read again. -/
def reread (m : Metadata) : Metadata :=
  { m with attributes := m.attributes.filter fun value => !value.isNull }

/-- The fields of a note as they are written. -/
def fields (m : Metadata) : Json.Fields :=
  Ordered.ofList ([("deckId", .string m.deckId), ("contextVariables", .object m.values)] ++
    Json.field? "attributes" id m.attributes)

theorem get?_fields (m : Metadata) (key : String) :
    m.fields.get? key =
      if key = "deckId" then some (.string m.deckId)
      else if key = "contextVariables" then some (.object m.values)
      else if key = "attributes" then m.attributes
      else none := by
  have hNames : (([("deckId", Json.string m.deckId), ("contextVariables", .object m.values)] ++
      Json.field? "attributes" id m.attributes).map Prod.fst).Nodup := by
    have hSublist := (List.Sublist.refl ["deckId", "contextVariables"]).append
      (Json.names_field? "attributes" id m.attributes)
    rw [List.map_append]
    exact hSublist.nodup (by decide)
  rw [fields, Ordered.get?_ofList_of_nodup hNames, Ordered.get?_append, Json.get?_field?,
    Ordered.get?_cons, Ordered.get?_cons, Ordered.get?_nil]
  simp only [Option.map_id_fun, id_eq]
  split
  · rfl
  · split <;> rfl

theorem ofJson?_toJson (m : Metadata) : ofJson? m.toJson = some m.reread := by
  have hAttributes : m.fields.optional? "attributes" Json.any? = some m.reread.attributes :=
    Json.Fields.optional?_any (get?_fields m "attributes")
  have hValues : m.fields.defaulted? "contextVariables" [] Json.fields? = some m.values :=
    Json.Fields.defaulted?_of_get? (get?_fields m "contextVariables") []
  have hDeck : m.fields.required? "deckId" Json.string? = some m.deckId :=
    Json.Fields.required?_of_get? (get?_fields m "deckId") rfl
  have hRecord : m.toJson.record? ["deckId", "contextVariables", "attributes"] 1 =
      some m.fields := rfl
  simp only [ofJson?, hRecord, Option.bind_eq_bind, Option.bind_some, hDeck, hValues, hAttributes]
  rfl

end Metadata

namespace Telemetry

/-- The note that is taken out of an object is what the object has under its name: a further field
of the payload, else the payload's own note as it is read again. -/
theorem metadata_strip_toJson (p : Payload) :
    (strip p.toJson).metadata =
      match Ordered.get? metadataField p.extra.reverse with
      | some note => Metadata.ofJson? note
      | none => p.metadata.map Metadata.reread := by
  show (Ordered.get? metadataField p.fields).bind Metadata.ofJson? = _
  rw [Payload.get?_fields, Payload.get?_metadataField_ownFields]
  cases Ordered.get? metadataField p.extra.reverse with
  | some note => rfl
  | none =>
      cases p.metadata with
      | none => rfl
      | some note => exact Metadata.ofJson?_toJson note

end Telemetry

theorem Metadata.reread_eq_self_iff {m : Metadata} : m.reread = m ↔ m.attributes ≠ some .null := by
  obtain ⟨deckId, values, attributes⟩ := m
  simp only [reread, mk.injEq, true_and]
  exact Json.filter_not_isNull_eq_self_iff

theorem extra_render (d : Deck) (options : RenderOptions) :
    (d.render options).extra = Ordered.ofList options.overrides.extra := rfl

theorem metadata_render (d : Deck) (options : RenderOptions) :
    (d.render options).metadata =
      if options.captureTelemetry then some (d.metadata options) else none := rfl

/--
**Telemetry stays behind.** Requests of one deck whose options differ in the capture and the
attributes of telemetry have the same body. It has no field with the name of the note, whatever the
overrides are, and all other fields of the request.
-/
theorem body_detach_render (d : Deck) (options : RenderOptions) (capture : Bool)
    (attributes : Option Json) :
    (detach (d.render { options with captureTelemetry := capture, attributes })).body =
        (detach (d.render options)).body ∧
      ∃ fields : Json.Fields, (detach (d.render options)).body = .object fields ∧
        (∀ entry ∈ fields, entry.1 ≠ metadataField) ∧
        ∀ key ≠ metadataField, fields.get? key = (d.render options).fields.get? key := by
  constructor
  · -- the two requests differ in their notes only
    have hNoted : d.render { options with captureTelemetry := capture, attributes } =
        (d.render options).noted (if capture then some { d.metadata options with attributes }
          else none) := rfl
    rw [hNoted]
    exact congrArg Json.object (Payload.erase_fields_noted _ _)
  · refine ⟨Ordered.erase metadataField (d.render options).fields, rfl, ?_, ?_⟩
    · apply Ordered.get?_eq_none_iff.1
      rw [Ordered.get?_erase, if_pos rfl]
    · intro key hKey
      rw [Ordered.get?_erase, if_neg hKey]

/--
**The two ways of taking the note out.** They leave the same body. Where a further field has the name
of the note, they hand on the same note exactly if the field reads as the note of the request.
Elsewhere they do so exactly if the attributes that are captured are not `null`.
-/
theorem strip_eq_detach_iff (d : Deck) (options : RenderOptions) :
    (strip (d.render options).toJson).body = (detach (d.render options)).body ∧
    (strip (d.render options).toJson = detach (d.render options) ↔
      match (Ordered.ofList options.overrides.extra).get? metadataField with
      | some note => Metadata.ofJson? note = (d.render options).metadata
      | none => options.captureTelemetry = true → options.attributes ≠ some .null) := by
  have hBody : (strip (d.render options).toJson).body = (detach (d.render options)).body := rfl
  have hIff : strip (d.render options).toJson = detach (d.render options) ↔
      (strip (d.render options).toJson).metadata = (d.render options).metadata :=
    ⟨fun hSame => congrArg Shipment.metadata hSame, fun hSame => by
      rw [detach, ← hSame]; rfl⟩
  refine ⟨hBody, hIff.trans ?_⟩
  rw [metadata_strip_toJson, extra_render, (Ordered.sorted_ofList _).get?_reverse]
  cases (Ordered.ofList options.overrides.extra).get? metadataField with
  | some note => rfl
  | none =>
      rw [metadata_render]
      cases options.captureTelemetry with
      | false => simp
      | true =>
          have hNote : (d.metadata options).reread = d.metadata options ↔
              options.attributes ≠ some .null :=
            Metadata.reread_eq_self_iff
          simpa using hNote

/-- Attributes that are `null` are lost where the note is read again, and so is the whole note where
a further field of its name is in the way. -/
theorem strip_ne_detach :
    strip ((Deck.empty "d").render { attributes := some .null }).toJson ≠
      detach ((Deck.empty "d").render { attributes := some .null }) ∧
    strip ((Deck.empty "d").render
        { overrides := { extra := [("bfMetadata", .string "x")] } }).toJson ≠
      detach ((Deck.empty "d").render
        { overrides := { extra := [("bfMetadata", .string "x")] } }) := by
  constructor
  · intro hSame
    have hAttributes := congrArg
      (fun shipment : Shipment => (shipment.metadata.bind Metadata.attributes).isSome) hSame
    revert hAttributes
    decide +kernel
  · intro hSame
    have hNote := congrArg (fun shipment : Shipment => shipment.metadata.isSome) hSame
    revert hNote
    decide +kernel

end Deckwright
