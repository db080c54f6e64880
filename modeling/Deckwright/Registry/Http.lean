import Deckwright.Config
import Deckwright.Registry.Basic
import Deckwright.Url.Basic

/-!
# Registries behind an address

A registry that is reached by requests over HTTP: a deck is asked for by `GET` and updated by
`PUT` at its own address, and created by `POST` at the address of all decks. The requests carry
the key of the registry, if there is one.

How requests are sent is left open: a `Transport` takes a request and gives the response.
-/

namespace Deckwright.Registry

/-! ## Requests and responses -/

/-- The method of a request. -/
inductive Method where
  | get
  | post
  | put
  deriving DecidableEq, Inhabited

/-- The name of a method. -/
def Method.name : Method → String
  | get => "GET"
  | post => "POST"
  | put => "PUT"

/-- A request to a registry. -/
structure Request where
  method : Method
  url : Url
  authorization : Option String := none
  body : Option Upload := none
  deriving DecidableEq, Inhabited

/-- The answer to a request. -/
structure Response where
  status : Nat
  body : String
  deriving DecidableEq, Inhabited

/-- Whether a response says that the request was carried out. -/
def Response.isSuccess (r : Response) : Bool :=
  200 ≤ r.status && r.status < 300

/-- The error of a response that is a refusal. -/
def Response.refusal (r : Response) : RegistryError :=
  .status r.status r.body

/-- A way to send requests, with the state that each leaves; without a response there is none. -/
abbrev Transport (σ : Type) := Request → σ → Option Response × σ

/-! ## The registry -/

/-- The address of a registry, and its key. -/
structure Http where
  base : Url
  apiKey : Option String := none
  deriving DecidableEq, Inhabited

namespace Http

/-- The registry at an address. -/
def ofAddress (address : String) (apiKey : Option String) : Except RegistryError Http :=
  match Url.read address with
  | .error e => .error (.invalidUrl (address ++ ": " ++ e.message))
  | .ok url =>
    match url.path with
    | .text _ => .error (.invalidUrl url.toString)
    | .segments _ => .ok { base := url.withoutFinalSlash, apiKey }

/-- The registry of the settings. -/
def ofConfig (c : RegistryConfig) : Except RegistryError Http :=
  match c.apiUrl with
  | some address => ofAddress address c.apiKey
  | none => .error .notConfigured

/-- The registry for display, with its key hidden. -/
def shown (h : Http) : String :=
  "HttpDeckRegistry \x7b base_url: " ++ Text.quoted h.base.toString ++ ", api_key: " ++
    Config.shownOption (fun _ => Text.quoted Config.redacted) h.apiKey ++ " \x7d"

/-- The address of all decks. -/
def decksUrl (h : Http) : Url :=
  h.base.push "decks"

/-- The address of a deck. -/
def deckUrl (h : Http) (id : String) : Url :=
  h.decksUrl.push id

/-- Whether a text can go into the head of a request: a tab, but no other control character. -/
def isHeaderText (text : String) : Bool :=
  text.toList.all fun c => c == '\t' || (0x20 ≤ c.toNat && c.toNat != 0x7F)

/-- Sends a request with the key; one whose key cannot be sent is not sent. -/
def send {σ : Type} (h : Http) (transport : Transport σ) (request : Request) (state : σ) :
    Except RegistryError Response × σ :=
  if h.apiKey.any fun key => !isHeaderText key then (.error .network, state)
  else
    let authorization := h.apiKey.map ("Bearer " ++ ·)
    match transport { request with authorization } state with
    | (some response, state) => (.ok response, state)
    | (none, state) => (.error .network, state)

/-- What the response to a request for a deck says: 404 that there is none. -/
def found : Response → Except RegistryError Bool := fun response =>
  if response.status = 404 then .ok false
  else if response.isSuccess then .ok true
  else .error response.refusal

/-- What the response to a change says. -/
def done : Response → Except RegistryError Unit := fun response =>
  if response.isSuccess then .ok () else .error response.refusal

/-- Sends a request and takes from the response what it says. -/
def ask {σ α : Type} (h : Http) (transport : Transport σ) (request : Request)
    (meaning : Response → Except RegistryError α) (state : σ) : Except RegistryError α × σ :=
  let (result, state) := h.send transport request state
  (result.bind meaning, state)

/-- The registry with a way to send its requests. -/
def registry {σ : Type} (h : Http) (transport : Transport σ) : Registry σ where
  has id := h.ask transport { method := .get, url := h.deckUrl id } found
  create upload := h.ask transport { method := .post, url := h.decksUrl, body := some upload } done
  update upload :=
    h.ask transport { method := .put, url := h.deckUrl upload.deckId, body := some upload } done

end Http

end Deckwright.Registry
