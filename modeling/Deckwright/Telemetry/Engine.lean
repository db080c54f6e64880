import Deckwright.Deck.Footnotes
import Deckwright.Telemetry.Call

/-!
# The telemetry engine

The records of the latest calls, and summaries of them by deck. The engine holds at most 5000
records; when it is full, the oldest 500 make room before the next one is stored.

A summary counts in words of 64 bits, and every addition is checked: where a count does not fit,
there is no summary.
-/

namespace Deckwright.Telemetry

/-! ## Summaries -/

/-- The statistics of the finished calls of a deck. -/
structure Summary where
  deckId : String
  calls : UInt64 := 0
  successes : UInt64 := 0
  failures : UInt64 := 0
  totalDuration : UInt64 := 0
  averageDuration : UInt64 := 0
  deriving DecidableEq, Inhabited

namespace Summary

/-- A number as a word, if it fits into one. -/
def word? (n : Nat) : Option UInt64 :=
  if n < UInt64.size then some (.ofNat n) else none

/-- The statistics with one more call, if they fit; a call that has not ended does not count. -/
def add (s : Summary) (r : CallRecord) : Option Summary :=
  match r.success with
  | none => some s
  | some success => do
    let successes ← word? (s.successes.toNat + success.toNat)
    let failures ← word? (s.failures.toNat + (!success).toNat)
    let calls ← word? (s.calls.toNat + 1)
    let totalDuration ← word? (s.totalDuration.toNat + (r.duration.getD 0).toNat)
    return { s with successes, failures, calls, totalDuration }

/-- The statistics of a list of calls, if they fit. -/
def ofRecords (deckId : String) (records : List CallRecord) : Option Summary := do
  let s ← records.foldlM add { deckId }
  return { s with averageDuration := if s.calls = 0 then 0 else s.totalDuration / s.calls }

/-- The fraction of the calls that succeeded, 0 if there are none. -/
def successRate (s : Summary) : Floating :=
  if s.calls = 0 then Floating.ofInt .double 0
  else
    (Floating.ofInt .double s.successes.toNat).dividedBy .double (Floating.ofInt .double s.calls.toNat)

/-- The statistics as an object. -/
def toJson (s : Summary) : Json :=
  Json.ofFields [("deck_id", .string s.deckId), ("calls", .int s.calls.toNat),
    ("successes", .int s.successes.toNat), ("failures", .int s.failures.toNat),
    ("total_duration_ms", .int s.totalDuration.toNat),
    ("avg_duration_ms", .int s.averageDuration.toNat)]

end Summary

/-! ## The engine -/

/-- The stored records, the newest first. -/
structure Engine where
  newestFirst : List CallRecord := []
  deriving Inhabited

namespace Engine

/-- The number of records that fill the engine. -/
def capacity : Nat := 5000

/-- The number of records that make room when the engine is full. -/
def room : Nat := 500

/-- The stored records, the oldest first. -/
def records (e : Engine) : List CallRecord :=
  e.newestFirst.reverse

/-- The number of stored records. -/
def count (e : Engine) : Nat :=
  e.newestFirst.length

/-- The engine with one more record. -/
def record (e : Engine) (r : CallRecord) : Engine :=
  let kept := if capacity ≤ e.count then e.newestFirst.take (e.count - room) else e.newestFirst
  { newestFirst := r :: kept }

/-- The engine without its records. -/
def clear (_ : Engine) : Engine :=
  {}

/-- The newest records, the newest first. -/
def recent (e : Engine) (limit : Nat) : List CallRecord :=
  e.newestFirst.take limit

/-- The records of a deck, the oldest first. -/
def recordsFor (e : Engine) (deckId : String) : List CallRecord :=
  e.records.filter fun r => r.deckId = deckId

/-- The statistics of a deck, if they fit. -/
def summaryFor (e : Engine) (deckId : String) : Option Summary :=
  Summary.ofRecords deckId (e.recordsFor deckId)

/-- The decks that have records, in the order of their first ones. -/
def deckIds (e : Engine) : List String :=
  withoutRepeats (e.records.map (·.deckId))

end Engine

end Deckwright.Telemetry
