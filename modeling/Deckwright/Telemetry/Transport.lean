import Deckwright.Request.Codec

/-!
# Transport

A request as it goes to the provider of the model: without the note for telemetry, which is
handed on beside it.
-/

namespace Deckwright.Telemetry

/-- The name of the field that holds the note. -/
def metadataField : String := "bfMetadata"

/-- A request without its note, and the note. -/
structure Shipment where
  body : Json
  metadata : Option Metadata
  deriving Inhabited

/-- The note of a payload and what is left of the payload without any field of that name. -/
def detach (p : Payload) : Shipment :=
  { body := .object (Ordered.erase metadataField p.fields), metadata := p.metadata }

/-- Takes the note out of a request that is JSON already; a malformed note is dropped. -/
def strip (body : Json) : Shipment :=
  match body with
  | .object fields =>
    { body := .object (Ordered.erase metadataField fields)
      metadata := (Ordered.get? metadataField fields).bind Metadata.ofJson? }
  | other => { body := other, metadata := none }

end Deckwright.Telemetry
