import Deckwright.Proofs.PushedSegments
import Deckwright.Registry.Http

/-!
# The addresses of decks

A registry asks for a deck and updates it at an address that ends with the identifier, and creates
decks at the address in front of that. What an address tells of an identifier is what comes of it as
a segment (`Url.landing`): nothing of `.` and `..`, whose addresses are that of all decks, and no
tab or end of a line of any other one.

* `deckUrl_eq`, `decksUrl_eq`: the addresses, by what comes of the identifier.
* `toString_behind_iff`: the text of an address tells what stands behind the registry in it.
* `reaches_of_mem_requests`: the addresses that are asked while a deck is brought to the registry.

Main result: `apart_iff`, which decks have addresses of their own.
-/

namespace Deckwright.Registry.Http

open Url

variable {h : Http} {list : List (List Char)}

/-! ## Addresses -/

/-- The segment under which a registry has its decks. -/
def decksSegment : List Char := ['d', 'e', 'c', 'k', 's']

/-- What stands behind the segments of the registry in the address of a deck. -/
def behind (kind : SchemeKind) : Landing → List (List Char)
  | .stays => [decksSegment]
  | .back => [[]]
  | .segment cs => [decksSegment, percentEncode (segmentReserved kind.isSpecial) cs]

theorem landing_decks : landing "decks" = .segment decksSegment := rfl

theorem settled_decksSegment (kind : SchemeKind) (front : List (List Char)) :
    settled kind front (percentEncode (segmentReserved kind.isSpecial) decksSegment) =
      decksSegment := by
  have hEncoded (special : Bool) :
      percentEncode (segmentReserved special) decksSegment = decksSegment := by
    cases special <;> decide
  rw [hEncoded]
  cases kind <;> cases front <;> rfl

theorem decksUrl_eq (hPath : h.base.path = .segments list) :
    h.decksUrl = { h.base with path := .segments (root list ++ [decksSegment]) } := by
  rw [decksUrl, push_eq hPath, landing_decks, if_neg (by decide), Landing.path,
    settled_decksSegment]

theorem shorten_decks (kind : SchemeKind) (front : List (List Char)) :
    shorten kind (front ++ [decksSegment]) = front := by
  unfold shorten
  split
  · rename_i segment hOne
    rcases List.append_eq_singleton_iff.1 hOne with ⟨rfl, hDecks⟩ | ⟨-, hNil⟩
    · cases hDecks
      rfl
    · cases hNil
  · exact List.dropLast_concat

theorem deckUrl_eq (hPath : h.base.path = .segments list) (id : String) :
    h.deckUrl id = { h.base with
      path := .segments (root list ++ behind (kindOf h.base.scheme) (landing id)) } := by
  have hDecks : root (root list ++ [decksSegment]) = root list ++ [decksSegment] := by
    refine if_neg fun hEmpty => ?_
    have hLast := congrArg List.getLast? hEmpty
    rw [List.getLast?_concat] at hLast
    revert hLast
    decide
  rw [deckUrl, decksUrl_eq hPath, push_eq rfl, hDecks, ite_self]
  dsimp only
  cases landing id with
  | stays => rfl
  | back => rw [Landing.path, shorten_decks, behind]
  | segment cs =>
      rw [Landing.path, settled_of_ne_nil _ (List.append_ne_nil_of_right_ne_nil _ (by decide)),
        List.append_assoc]
      rfl

/-- What stands behind the segments of the registry tells what comes of the identifier. -/
theorem flatMap_behind_injective (kind : SchemeKind) :
    Function.Injective fun landing => (behind kind landing).flatMap ('/' :: ·) := by
  intro landing other hSame
  cases landing <;> cases other <;>
    simp [behind, decksSegment, (segment_injective kind.isSpecial).eq_iff] at hSame ⊢
  exact hSame

theorem toString_behind_iff (url : Url) (front : List (List Char)) (kind : SchemeKind)
    (landing other : Landing) :
    { url with path := .segments (front ++ behind kind landing) }.toString =
        { url with path := .segments (front ++ behind kind other) }.toString ↔
      landing = other := by
  have hText (landing : Landing) :
      { url with path := .segments (front ++ behind kind landing) }.pathText =
        url.frontText front ++ (behind kind landing).flatMap ('/' :: ·) := by
    apply pathText_append <;> cases landing <;> simp [behind, decksSegment]
  rw [toString_eq_iff, hText, hText, List.append_cancel_left_eq]
  exact (flatMap_behind_injective kind).eq_iff

theorem toString_deckUrl_eq_iff (hPath : h.base.path = .segments list) (a b : String) :
    (h.deckUrl a).toString = (h.deckUrl b).toString ↔ landing a = landing b := by
  rw [deckUrl_eq hPath, deckUrl_eq hPath]
  exact toString_behind_iff _ _ _ _ _

theorem landing_eq_stays_iff {id : String} : landing id = .stays ↔ id = "." ∨ id = ".." := by
  rw [landing]
  split
  · rename_i hDots
    simp [hDots]
  · rename_i hDots
    split
    · simp [hDots]
    · split <;> simp [hDots]

theorem toString_deckUrl_eq_decksUrl_iff (hPath : h.base.path = .segments list) (id : String) :
    (h.deckUrl id).toString = h.decksUrl.toString ↔ id = "." ∨ id = ".." := by
  rw [← landing_eq_stays_iff, deckUrl_eq hPath, decksUrl_eq hPath]
  exact toString_behind_iff _ _ _ _ .stays

/-- An address that a registry is made for has a path of segments. -/
theorem exists_segments {address : String} {apiKey : Option String}
    (hValid : ofAddress address apiKey = .ok h) : ∃ list, h.base.path = .segments list := by
  rw [ofAddress] at hValid
  split at hValid
  · cases hValid
  · rename_i url _
    split at hValid
    · cases hValid
    · rename_i list hPath
      cases hValid
      show ∃ list, url.withoutFinalSlash.path = .segments list
      rw [withoutFinalSlash, hPath]
      dsimp only
      split
      · exact ⟨_, rfl⟩
      · exact ⟨_, hPath⟩

/-! ## Requests -/

section Requests

variable {σ : Type} {transport : Transport σ} {s : σ} {upload : Upload} {cache : Cache}

/-- A way to send requests with a list of those that were sent. -/
def listening (transport : Transport σ) : Transport (σ × List Request) := fun request s =>
  let (response, next) := transport request s.1
  (response, next, s.2 ++ [request])

/-- The requests that are sent while a deck is brought to a registry. -/
def requests (h : Http) (transport : Transport σ) (upload : Upload) (cache : Cache) (s : σ) :
    List Request :=
  ((h.registry (listening transport)).sync upload cache (s, [])).2.2.2

/-- The request goes to the address of a deck or to that of all decks. -/
def Reaches (h : Http) (id : String) (request : Request) : Prop :=
  request.url = h.deckUrl id ∨ request.url = h.decksUrl

/-- A call sends nothing but its request, with the key. -/
theorem ask_keeps {α : Type} {p : Request → Prop} {request : Request}
    (hRequest : p { request with authorization := h.apiKey.map ("Bearer " ++ ·) })
    (meaning : Response → Except RegistryError α) {t : σ × List Request}
    (hSent : ∀ sent ∈ t.2, p sent) :
    ∀ sent ∈ (h.ask (listening transport) request meaning t).2.2, p sent := by
  have hState : (h.ask (listening transport) request meaning t).2 =
      (h.send (listening transport) request t).2 := rfl
  have hMore : ∀ sent ∈ t.2 ++ [{ request with authorization := h.apiKey.map ("Bearer " ++ ·) }],
      p sent := by
    intro sent hMem
    rcases List.mem_append.1 hMem with hOld | hNew
    · exact hSent sent hOld
    · rwa [List.mem_singleton.1 hNew]
  rw [hState, send]
  split
  · exact hSent
  · dsimp only [listening]
    cases (transport { request with authorization := h.apiKey.map ("Bearer " ++ ·) } t.1).1 <;>
      exact hMore

theorem reaches_of_mem_requests :
    ∀ request ∈ h.requests transport upload cache s, h.Reaches upload.deckId request := by
  rw [requests, sync]
  split
  · simp
  · have hAsked : ∀ sent ∈ (((h.registry (listening transport)).has upload.deckId (s, [])).2).2,
        h.Reaches upload.deckId sent := ask_keeps (.inl rfl) _ (by simp)
    have hChanged {t : σ × List Request} (hSent : ∀ sent ∈ t.2, h.Reaches upload.deckId sent) :
        (∀ sent ∈ (((h.registry (listening transport)).update upload t).2).2,
          h.Reaches upload.deckId sent) ∧
        ∀ sent ∈ (((h.registry (listening transport)).create upload t).2).2,
          h.Reaches upload.deckId sent :=
      ⟨ask_keeps (.inl rfl) _ hSent, ask_keeps (.inr rfl) _ hSent⟩
    split <;> rename_i hHas <;> rw [hHas] at hAsked
    · exact hAsked
    · split <;> rename_i hUpdate <;> simpa only [hUpdate] using (hChanged hAsked).1
    · split <;> rename_i hCreate <;> simpa only [hCreate] using (hChanged hAsked).2

end Requests

/-! ## Decks with addresses of their own -/

/-- Two decks have addresses of their own, and neither is the address of all decks. -/
def Apart (h : Http) (a b : String) : Prop :=
  (h.deckUrl a).toString ≠ (h.deckUrl b).toString ∧
    (h.deckUrl a).toString ≠ h.decksUrl.toString ∧ (h.deckUrl b).toString ≠ h.decksUrl.toString

/-- An address keeps the whole of the identifier: it is none of the two that add nothing to a path,
and has no tabs and no ends of lines. -/
structure Plain (id : String) : Prop where
  dots : id ≠ "." ∧ id ≠ ".."
  kept : ∀ c ∈ id.toList, c ≠ '\t' ∧ c ≠ '\n' ∧ c ≠ '\r'

theorem landing_of_plain {id : String} (hPlain : Plain id) : landing id = .segment id.toList := by
  have hKept : kept id = id.toList := by
    rw [Url.kept, List.filter_eq_self]
    intro c hMem
    simpa [and_assoc] using hPlain.kept c hMem
  rw [landing, if_neg (not_or.2 hPlain.dots), hKept, if_neg, if_neg]
  · exact fun hDot => hPlain.dots.1 (String.toList_inj.1 hDot)
  · exact fun hDots => hPlain.dots.2 (String.toList_inj.1 hDots)

theorem landing_ne_of_plain {a b : String} (hFirst : Plain a) (hSecond : Plain b) (hNe : a ≠ b) :
    landing a ≠ landing b := by
  rw [landing_of_plain hFirst, landing_of_plain hSecond]
  exact fun hSame => hNe (String.toList_inj.1 (Landing.segment.inj hSame))

theorem apart_iff_landing (hPath : h.base.path = .segments list) (a b : String) :
    h.Apart a b ↔ landing a ≠ landing b ∧ (a ≠ "." ∧ a ≠ "..") ∧ b ≠ "." ∧ b ≠ ".." := by
  rw [Apart, Ne, toString_deckUrl_eq_iff hPath, Ne, toString_deckUrl_eq_decksUrl_iff hPath, Ne,
    toString_deckUrl_eq_decksUrl_iff hPath, not_or, not_or]

/--
**Decks and their addresses.** For every address that a registry can be made for, two decks have the
same address exactly if the same comes of their identifiers, and the address of a deck is that of
all decks exactly if its identifier is `.` or `..`. Decks whose addresses keep the whole of their
identifiers have addresses of their own; and where decks have addresses of their own, nothing that
is sent while one of them is brought to the registry goes to the other one.
-/
theorem apart_iff {address : String} {apiKey : Option String}
    (hValid : ofAddress address apiKey = .ok h) (a b : String) :
    ((h.deckUrl a).toString = (h.deckUrl b).toString ↔ landing a = landing b) ∧
    ((h.deckUrl a).toString = h.decksUrl.toString ↔ a = "." ∨ a = "..") ∧
    (h.Apart a b ↔ landing a ≠ landing b ∧ (a ≠ "." ∧ a ≠ "..") ∧ b ≠ "." ∧ b ≠ "..") ∧
    (Plain a → Plain b → a ≠ b → h.Apart a b) ∧
    (h.Apart a b →
      ∀ {σ : Type} (transport : Transport σ) (s : σ) (upload : Upload) (cache : Cache),
        upload.deckId = a → ∀ request ∈ h.requests transport upload cache s,
          request.url.toString ≠ (h.deckUrl b).toString) := by
  obtain ⟨list, hPath⟩ := exists_segments hValid
  refine ⟨toString_deckUrl_eq_iff hPath a b, toString_deckUrl_eq_decksUrl_iff hPath a,
    apart_iff_landing hPath a b, fun hFirst hSecond hNe => ?_,
    fun hApart _ transport s upload cache hId request hMem => ?_⟩
  · exact (apart_iff_landing hPath a b).2
      ⟨landing_ne_of_plain hFirst hSecond hNe, hFirst.dots, hSecond.dots⟩
  · rcases reaches_of_mem_requests request hMem with hDeck | hAll
    · rw [hDeck, hId]
      exact hApart.1
    · rw [hAll]
      exact hApart.2.2.symm

/-- The registry at `https://registry.test/api`. -/
def testRegistry : Http where
  base := {
    scheme := "https".toList, host := some "registry.test".toList
    path := .segments ["api".toList] }

theorem ofAddress_testRegistry :
    ofAddress "https://registry.test/api" none = .ok testRegistry := by
  decide +kernel

/-- A server that knows no deck. -/
def emptyServer : Transport Unit := fun _ s => (some { status := 404, body := "" }, s)

/-- A slash in an identifier is not the end of a segment, and a sign that is encoded already is
encoded once more. -/
theorem apart_iff_encoded :
    ofAddress "https://registry.test/api" none = .ok testRegistry ∧
    testRegistry.Apart "my deck/v2" "my deck%2Fv2" ∧
    (testRegistry.deckUrl "my deck%2Fv2").toString =
      "https://registry.test/api/decks/my%20deck%252Fv2" ∧
    (testRegistry.requests emptyServer ⟨"my deck/v2", "", ""⟩ {} ()).map (·.url.toString) =
      ["https://registry.test/api/decks/my%20deck%2Fv2", "https://registry.test/api/decks"] ∧
    ∀ request ∈ testRegistry.requests emptyServer ⟨"my deck/v2", "", ""⟩ {} (),
      request.url.toString ≠ (testRegistry.deckUrl "my deck%2Fv2").toString := by
  obtain ⟨-, -, -, hPlain, hSent⟩ := apart_iff ofAddress_testRegistry "my deck/v2" "my deck%2Fv2"
  have hApart : testRegistry.Apart "my deck/v2" "my deck%2Fv2" :=
    hPlain ⟨by decide, by simp⟩ ⟨by decide, by simp⟩ (by decide)
  have hElsewhere := hSent hApart emptyServer () ⟨"my deck/v2", "", ""⟩ {} rfl
  exact ⟨ofAddress_testRegistry, hApart, by decide +kernel, by decide +kernel, hElsewhere⟩

/-- Any two decks have addresses of their own, unless their identifiers are blank. -/
def KeepsApart (h : Http) : Prop :=
  ∀ a b, blank a = false → blank b = false → a ≠ b → h.Apart a b

/-- Two decks have the address of all decks, and two others have one address. -/
theorem not_keepsApart :
    ofAddress "https://registry.test/api" none = .ok testRegistry ∧
    testRegistry.decksUrl.toString = "https://registry.test/api/decks" ∧
    (testRegistry.deckUrl ".").toString = "https://registry.test/api/decks" ∧
    (testRegistry.deckUrl "..").toString = "https://registry.test/api/decks" ∧
    (testRegistry.deckUrl "a\tb").toString = (testRegistry.deckUrl "ab").toString ∧
    ¬ testRegistry.KeepsApart := by
  refine ⟨ofAddress_testRegistry, by decide +kernel, by decide +kernel, by decide +kernel,
    by decide +kernel, ?_⟩
  intro hKeeps
  have hApart : testRegistry.Apart "." ".." :=
    hKeeps "." ".." (by decide) (by decide) (by decide)
  exact hApart.1 (by decide +kernel)

end Deckwright.Registry.Http
