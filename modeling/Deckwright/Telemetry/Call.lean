import Deckwright.Request.Codec
import Deckwright.Telemetry.Instant

/-!
# Call records

What is known of one call of a model with the request of a deck: when it started, and once it
has ended, how long it took and what came of it.
-/

namespace Deckwright.Telemetry

/-- The record of a call. -/
structure CallRecord where
  id : String
  deckId : String
  model : String
  values : Json.Fields := []
  attributes : Option Json := none
  startedAt : Instant
  endedAt : Option Instant := none
  duration : Option UInt64 := none
  /-- Whether the call succeeded; none while it has not ended. -/
  success : Option Bool := none
  response : Option String := none
  error : Option String := none
  deriving Inhabited

namespace CallRecord

/-- The record of a call that starts now. -/
def start (id : String) (now : Instant) (metadata : Metadata) (model : String) : CallRecord :=
  { id, deckId := metadata.deckId, model, values := metadata.values
    attributes := metadata.attributes, startedAt := now }

/-- The record of a call that ends now. -/
def finish (now : Instant) (success : Bool) (r : CallRecord) : CallRecord :=
  { r with
    endedAt := some now
    duration := some (UInt64.ofNat (r.startedAt.millisecondsTo now))
    success := some success }

/-- The record of a call that ends now with a response. -/
def succeed (now : Instant) (response : String) (r : CallRecord) : CallRecord :=
  finish now true { r with response := some response }

/-- The record of a call that ends now with an error. -/
def fail (now : Instant) (error : String) (r : CallRecord) : CallRecord :=
  finish now false { r with error := some error }

/-- Whether the call has ended. -/
def isFinished (r : CallRecord) : Bool :=
  r.success.isSome

/-- A record as an object; absent attributes, response and error are left out. -/
def toJson (r : CallRecord) : Json :=
  Json.ofFields
    ([("id", .string r.id), ("deck_id", .string r.deckId), ("model", .string r.model),
      ("context_variables", .object r.values), ("started_at", .string r.startedAt.toString),
      ("ended_at", Json.ofOption (fun t => .string t.toString) r.endedAt),
      ("duration_ms", Json.ofOption (fun n => .int n.toNat) r.duration),
      ("success", Json.ofOption Json.bool r.success)] ++
      Json.field? "attributes" (fun value => value) r.attributes ++ Json.field? "response" Json.string r.response ++
      Json.field? "error" Json.string r.error)

/-- Reads an instant. -/
def instant? (value : Json) : Option Instant :=
  value.string?.bind Instant.ofString?

/-- Reads a record. -/
def ofJson? (value : Json) : Option CallRecord := do
  let fields ← value.record?
    ["id", "deck_id", "model", "context_variables", "attributes", "started_at", "ended_at",
      "duration_ms", "success", "response", "error"] 9
  return {
    id := ← fields.required? "id" Json.string?
    deckId := ← fields.required? "deck_id" Json.string?
    model := ← fields.required? "model" Json.string?
    values := ← fields.defaulted? "context_variables" [] Json.fields?
    attributes := ← fields.optional? "attributes" Json.any?
    startedAt := ← fields.required? "started_at" instant?
    endedAt := ← fields.optional? "ended_at" instant?
    duration := ← fields.optional? "duration_ms" Json.uint64?
    success := ← fields.optional? "success" Json.bool?
    response := ← fields.optional? "response" Json.string?
    error := ← fields.optional? "error" Json.string? }

end CallRecord

end Deckwright.Telemetry
