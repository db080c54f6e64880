import Deckwright.Deck.Codec
import Deckwright.SystemText

/-!
# Registries

A registry keeps the documents of decks by identifier. `Registry σ` is what one can be asked
to do; `σ` is whatever it remembers between the calls, and every call may fail.

`Registry.sync` brings a deck to a registry: it asks whether the registry has the deck, then
creates or updates it. The decks that were brought there are remembered in a cache, and no
deck in the cache is brought again. A call that fails leaves the cache as it was.
-/

namespace Deckwright

/-! ## Documents -/

/-- The document that a registry keeps for a deck. -/
structure Upload where
  deckId : String
  /-- The source as it was written. -/
  raw : String
  /-- The system text. -/
  processed : String
  deriving DecidableEq, Inhabited

namespace Upload

/-- The document of a deck with the given source; no samples are asked for in its text. -/
def ofDeck (d : Deck) (raw : String) : Upload :=
  { deckId := d.name, raw, processed := d.systemText [] }

/-- A document as an object. -/
def toJson (u : Upload) : Json :=
  Json.ofFields [("deckId", .string u.deckId), ("rawMarkdown", .string u.raw),
    ("processedMarkdown", .string u.processed)]

/-- Reads a document. -/
def ofJson? (value : Json) : Option Upload := do
  let fields ← value.record? ["deckId", "rawMarkdown", "processedMarkdown"] 3
  return {
    deckId := ← fields.required? "deckId" Json.string?
    raw := ← fields.required? "rawMarkdown" Json.string?
    processed := ← fields.required? "processedMarkdown" Json.string? }

end Upload

/-! ## Registries -/

/-- Why a call to a registry fails. -/
inductive RegistryError where
  /-- There was no answer. -/
  | network
  /-- The answer was a refusal. -/
  | status (code : Nat) (text : String)
  /-- The address of the registry is none. -/
  | invalidUrl (text : String)
  /-- The settings have no address. -/
  | notConfigured
  deriving DecidableEq, Inhabited

/-- The text of an error. -/
def RegistryError.message : RegistryError → String
  | network => "registry network error"
  | status code text => "registry returned " ++ toString code ++ ": " ++ text
  | invalidUrl text => "invalid registry URL: " ++ text
  | notConfigured => "registry not configured: registry.api_url is not set"

/-- What a registry can be asked to do, each call with the state that it leaves. -/
structure Registry (σ : Type) where
  /-- Whether the registry has a deck. -/
  has : String → σ → Except RegistryError Bool × σ
  create : Upload → σ → Except RegistryError Unit × σ
  update : Upload → σ → Except RegistryError Unit × σ

/-! ## The cache -/

/-- The identifiers of the decks that were brought to a registry, each once. -/
structure Cache where
  ids : List String := []
  deriving DecidableEq, Inhabited

namespace Cache

/-- Whether a deck was brought to the registry. -/
def contains (cache : Cache) (id : String) : Bool :=
  cache.ids.contains id

/-- The cache with one more deck. -/
def insert (cache : Cache) (id : String) : Cache :=
  if cache.contains id then cache else { ids := id :: cache.ids }

/-- The number of decks in the cache. -/
def size (cache : Cache) : Nat :=
  cache.ids.length

/-- The cache without its decks. -/
def clear (_ : Cache) : Cache :=
  {}

end Cache

/-! ## Bringing decks to a registry -/

/-- What was done with a deck. -/
inductive Outcome where
  | created
  | updated
  /-- The deck was in the cache, and the registry was not asked. -/
  | cached
  deriving DecidableEq, Inhabited

/-- The name of an outcome. -/
def Outcome.name : Outcome → String
  | created => "created"
  | updated => "updated"
  | cached => "cached"

/-- Brings a deck to a registry, unless it is in the cache. -/
def Registry.sync {σ : Type} (registry : Registry σ) (upload : Upload) (cache : Cache) (state : σ) :
    Except RegistryError Outcome × Cache × σ :=
  if cache.contains upload.deckId then (.ok .cached, cache, state)
  else
    match registry.has upload.deckId state with
    | (.error e, state) => (.error e, cache, state)
    | (.ok true, state) =>
      match registry.update upload state with
      | (.error e, state) => (.error e, cache, state)
      | (.ok _, state) => (.ok .updated, cache.insert upload.deckId, state)
    | (.ok false, state) =>
      match registry.create upload state with
      | (.error e, state) => (.error e, cache, state)
      | (.ok _, state) => (.ok .created, cache.insert upload.deckId, state)

end Deckwright
