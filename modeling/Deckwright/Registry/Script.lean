import Deckwright.Registry.Http

/-!
# Scripted servers

A server that knows beforehand what it will answer: response `n` goes to request `n`, and a
request for which no response is left gets none. It writes down the requests.
-/

namespace Deckwright.Registry

/-- The responses that are left, and the requests so far, the latest first. -/
structure Script where
  responses : List Response
  latestFirst : List Request := []
  deriving Inhabited

namespace Script

/-- The requests in order. -/
def requests (script : Script) : List Request :=
  script.latestFirst.reverse

/-- Answers a request. -/
def transport : Transport Script := fun request script =>
  (script.responses.head?,
    { responses := script.responses.tail, latestFirst := request :: script.latestFirst })

end Script

end Deckwright.Registry
