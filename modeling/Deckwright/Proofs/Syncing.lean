import Mathlib.Data.List.DropRight
import Mathlib.Data.List.Nodup
import Deckwright.Registry.Http

/-!
# Decks are brought to a registry once

A registry may answer whatever it likes: it is any `Registry σ`, with any memory, and each of its
three calls may fail. To see what it is asked, it is run with a list of all that it is asked and of
its answers (`logged`), which changes nothing else (`sync_logged`).

* `Syncs` lists the six things that can come of bringing one deck to a registry, `syncs_sync` says
  that there are no others.
* `Sound` is the invariant of a run: the cache holds the decks that were brought to the registry
  since it was last cleared, the latest first, and each of them once.
* `Http.ask_eq_iff`: over HTTP a call succeeds if the server answers and its answer says so.

Main result: `sync_run`, for all runs and all registries, with the meaning of the status codes.
-/

namespace Deckwright.Registry

variable {σ : Type}

/-! ## What a registry is asked -/

/-- Something that a registry was asked, and its answer. -/
inductive Contact where
  | has (id : String) (answer : Except RegistryError Bool)
  | create (upload : Upload) (answer : Except RegistryError Unit)
  | update (upload : Upload) (answer : Except RegistryError Unit)

/-- The deck that the registry has in a new version after the contact. -/
def Contact.pushed? : Contact → Option String
  | .create upload (.ok _) => some upload.deckId
  | .update upload (.ok _) => some upload.deckId
  | _ => none

/-- The registry with a list of all that it is asked. -/
def logged (registry : Registry σ) : Registry (σ × List Contact) where
  has id s :=
    let (answer, next) := registry.has id s.1
    (answer, next, s.2 ++ [.has id answer])
  create upload s :=
    let (answer, next) := registry.create upload s.1
    (answer, next, s.2 ++ [.create upload answer])
  update upload s :=
    let (answer, next) := registry.update upload s.1
    (answer, next, s.2 ++ [.update upload answer])

/-- What a registry is asked while a deck is brought to it. -/
def contacts (registry : Registry σ) (upload : Upload) (cache : Cache) (state : σ) :
    List Contact :=
  (registry.logged.sync upload cache (state, [])).2.2.2

/-! ## One deck -/

/-- What can come of bringing a deck to a registry: what the registry is asked, what is answered,
and the cache afterwards. -/
inductive Syncs (upload : Upload) (cache : Cache) :
    List Contact → Except RegistryError Outcome → Cache → Prop where
  | cached (h : upload.deckId ∈ cache.ids) : Syncs upload cache [] (.ok .cached) cache
  | unanswered (h : upload.deckId ∉ cache.ids) (e : RegistryError) :
      Syncs upload cache [.has upload.deckId (.error e)] (.error e) cache
  | created (h : upload.deckId ∉ cache.ids) :
      Syncs upload cache [.has upload.deckId (.ok false), .create upload (.ok ())]
        (.ok .created) ⟨upload.deckId :: cache.ids⟩
  | notCreated (h : upload.deckId ∉ cache.ids) (e : RegistryError) :
      Syncs upload cache [.has upload.deckId (.ok false), .create upload (.error e)]
        (.error e) cache
  | updated (h : upload.deckId ∉ cache.ids) :
      Syncs upload cache [.has upload.deckId (.ok true), .update upload (.ok ())]
        (.ok .updated) ⟨upload.deckId :: cache.ids⟩
  | notUpdated (h : upload.deckId ∉ cache.ids) (e : RegistryError) :
      Syncs upload cache [.has upload.deckId (.ok true), .update upload (.error e)]
        (.error e) cache

/-- Every run of `sync` is one of the six, and it is the same with and without the list. -/
theorem exists_syncs (registry : Registry σ) (upload : Upload) (cache : Cache) (state : σ) :
    ∃ asked result after last,
      registry.sync upload cache state = (result, after, last) ∧
      registry.logged.sync upload cache (state, []) = (result, after, last, asked) ∧
      Syncs upload cache asked result after := by
  by_cases hCached : upload.deckId ∈ cache.ids
  · refine ⟨[], .ok .cached, cache, state, ?_, ?_, .cached hCached⟩ <;>
      simp [sync, Cache.contains, hCached]
  · rcases hHas : registry.has upload.deckId state with ⟨_ | _ | _, next⟩
    case error e =>
      refine ⟨_, .error e, cache, next, ?_, ?_, .unanswered hCached e⟩ <;>
        simp [sync, logged, Cache.contains, hCached, hHas]
    case ok.false =>
      rcases hCreate : registry.create upload next with ⟨e | _, last⟩
      · refine ⟨_, .error e, cache, last, ?_, ?_, .notCreated hCached e⟩ <;>
          simp [sync, logged, Cache.contains, hCached, hHas, hCreate]
      · refine ⟨_, .ok .created, _, last, ?_, ?_, .created hCached⟩ <;>
          simp [sync, logged, Cache.contains, Cache.insert, hCached, hHas, hCreate]
    case ok.true =>
      rcases hUpdate : registry.update upload next with ⟨e | _, last⟩
      · refine ⟨_, .error e, cache, last, ?_, ?_, .notUpdated hCached e⟩ <;>
          simp [sync, logged, Cache.contains, hCached, hHas, hUpdate]
      · refine ⟨_, .ok .updated, _, last, ?_, ?_, .updated hCached⟩ <;>
          simp [sync, logged, Cache.contains, Cache.insert, hCached, hHas, hUpdate]

section Sync

variable (registry : Registry σ) (upload : Upload) (cache : Cache) (state : σ)

/-- A registry that is listened to answers as before. -/
theorem sync_logged :
    registry.logged.sync upload cache (state, []) =
      ((registry.sync upload cache state).1, (registry.sync upload cache state).2.1,
        (registry.sync upload cache state).2.2, registry.contacts upload cache state) := by
  obtain ⟨asked, result, after, last, hSync, hLogged, -⟩ :=
    exists_syncs registry upload cache state
  rw [contacts, hSync, hLogged]

theorem syncs_sync :
    Syncs upload cache (registry.contacts upload cache state)
      (registry.sync upload cache state).1 (registry.sync upload cache state).2.1 := by
  obtain ⟨asked, result, after, last, hSync, hLogged, hSyncs⟩ :=
    exists_syncs registry upload cache state
  rw [contacts, hSync, hLogged]
  exact hSyncs

end Sync

namespace Syncs

variable {upload : Upload} {cache after : Cache} {asked : List Contact}
  {result : Except RegistryError Outcome}

theorem cached_iff (h : Syncs upload cache asked result after) :
    result = .ok .cached ↔ upload.deckId ∈ cache.ids := by
  cases h <;> simp [*]

theorem asked_eq_nil_iff (h : Syncs upload cache asked result after) :
    asked = [] ↔ upload.deckId ∈ cache.ids := by
  cases h <;> simp [*]

theorem eq_of_error (h : Syncs upload cache asked result after) {e : RegistryError}
    (hError : result = .error e) : after = cache := by
  cases h with
  | created h => cases hError
  | updated h => cases hError
  | _ => rfl

end Syncs

/-! ## Runs -/

/-- What is done with a syncer: a deck is brought to its registry, or its cache is cleared. -/
inductive SyncStep where
  | sync (upload : Upload)
  | clear

/-- A step with what came of it. -/
inductive Turn where
  | synced (upload : Upload) (asked : List Contact) (result : Except RegistryError Outcome)
  | cleared

namespace Turn

/-- Whether the step brought a deck or tried to. -/
def isSync : Turn → Bool
  | .synced .. => true
  | .cleared => false

/-- The deck that was brought to the registry, as the outcome has it. -/
def brought? : Turn → Option String
  | .synced upload _ (.ok .created) => some upload.deckId
  | .synced upload _ (.ok .updated) => some upload.deckId
  | _ => none

/-- The decks that were brought to the registry, as its answers have it. -/
def pushes : Turn → List String
  | .synced _ asked _ => asked.filterMap Contact.pushed?
  | .cleared => []

end Turn

/-- The steps behind the last clearing. -/
def sinceClear (turns : List Turn) : List Turn :=
  turns.rtakeWhile Turn.isSync

/-- The decks that were brought to the registry since the cache was last cleared, in order. -/
def broughtIn (turns : List Turn) : List String :=
  (sinceClear turns).filterMap Turn.brought?

/-- The decks that the registry took since the cache was last cleared, in order. -/
def pushedIn (turns : List Turn) : List String :=
  (sinceClear turns).flatMap Turn.pushes

/-- A syncer in the middle of a run: its cache, what the registry remembers, and what came of the
steps so far. -/
structure Syncer (σ : Type) where
  cache : Cache := {}
  state : σ
  turns : List Turn := []

namespace Syncer

/-- One more step. -/
def step (registry : Registry σ) (s : Syncer σ) : SyncStep → Syncer σ
  | .sync upload =>
    let synced := registry.sync upload s.cache s.state
    let asked := registry.contacts upload s.cache s.state
    { cache := synced.2.1, state := synced.2.2
      turns := s.turns ++ [.synced upload asked synced.1] }
  | .clear => { s with cache := s.cache.clear, turns := s.turns ++ [.cleared] }

/-- Steps of a new syncer, one after the other. -/
def run (registry : Registry σ) (start : σ) (steps : List SyncStep) : Syncer σ :=
  steps.foldl (step registry) { state := start }

/-- The cache holds what was brought to the registry since it was last cleared, and each deck was
brought there once. -/
structure Sound (s : Syncer σ) : Prop where
  cached : s.cache.ids.reverse = broughtIn s.turns
  pushed : pushedIn s.turns = broughtIn s.turns
  nodup : s.cache.ids.Nodup

theorem sound_start (start : σ) : Sound ({ state := start } : Syncer σ) where
  cached := rfl
  pushed := rfl
  nodup := .nil

end Syncer

section Turns

variable {turns : List Turn} {turn : Turn}

theorem broughtIn_append (h : turn.isSync = true) :
    broughtIn (turns ++ [turn]) = broughtIn turns ++ turn.brought?.toList := by
  rw [broughtIn, sinceClear, List.rtakeWhile_concat_pos _ _ _ h, List.filterMap_append]
  cases hBrought : turn.brought? <;> simp [hBrought, broughtIn, sinceClear]

theorem pushedIn_append (h : turn.isSync = true) :
    pushedIn (turns ++ [turn]) = pushedIn turns ++ turn.pushes := by
  rw [pushedIn, sinceClear, List.rtakeWhile_concat_pos _ _ _ h, List.flatMap_append]
  simp [pushedIn, sinceClear]

theorem sinceClear_cleared : sinceClear (turns ++ [.cleared]) = [] :=
  List.rtakeWhile_concat_neg _ _ _ (by decide)

end Turns

/-- The outcome and the answers of the registry agree on what was brought there, and it is new in
the cache. -/
theorem Syncs.brought {upload : Upload} {cache after : Cache} {asked : List Contact}
    {result : Except RegistryError Outcome} (h : Syncs upload cache asked result after) :
    let turn := Turn.synced upload asked result
    after.ids.reverse = cache.ids.reverse ++ turn.brought?.toList ∧
      turn.pushes = turn.brought?.toList ∧ (cache.ids.Nodup → after.ids.Nodup) := by
  cases h with
  | created h => exact ⟨List.reverse_cons, rfl, fun hNodup => List.nodup_cons.2 ⟨h, hNodup⟩⟩
  | updated h => exact ⟨List.reverse_cons, rfl, fun hNodup => List.nodup_cons.2 ⟨h, hNodup⟩⟩
  | _ => exact ⟨(List.append_nil _).symm, rfl, id⟩

namespace Syncer

theorem Sound.step {registry : Registry σ} {s : Syncer σ} (h : s.Sound) (next : SyncStep) :
    (s.step registry next).Sound := by
  cases next with
  | sync upload =>
      obtain ⟨hCached, hPushed, hNodup⟩ := (syncs_sync registry upload s.cache s.state).brought
      constructor <;> simp only [Syncer.step]
      · rw [broughtIn_append rfl, ← h.cached, hCached]
      · rw [broughtIn_append rfl, pushedIn_append rfl, h.pushed, hPushed]
      · exact hNodup h.nodup
  | clear =>
      constructor <;> simp only [Syncer.step, broughtIn, pushedIn, sinceClear_cleared]
      · rfl
      · rfl
      · exact .nil

theorem sound_run (registry : Registry σ) (start : σ) (steps : List SyncStep) :
    (run registry start steps).Sound := by
  have hAll : ∀ s : Syncer σ, s.Sound → (steps.foldl (step registry) s).Sound := by
    induction steps with
    | nil => exact fun s h => h
    | cons next rest ih => exact fun s h => ih _ (h.step next)
  exact hAll _ (sound_start start)

end Syncer

/-! ## Over HTTP -/

namespace Http

variable {h : Http} {transport : Transport σ} {s : σ} {request : Request}

/-- The server answers a request that is sent with the key of the registry. -/
structure Answers (h : Http) (transport : Transport σ) (s : σ) (request : Request)
    (response : Response) : Prop where
  key : ∀ key, h.apiKey = some key → isHeaderText key = true
  answer : (transport { request with authorization := h.apiKey.map ("Bearer " ++ ·) } s).1 =
    some response

theorem send_eq_ok_iff {response : Response} :
    (h.send transport request s).1 = .ok response ↔ h.Answers transport s request response := by
  have hKey : (h.apiKey.any fun key => !isHeaderText key) = true ↔
      ¬ ∀ key, h.apiKey = some key → isHeaderText key = true := by
    cases h.apiKey <;> simp
  by_cases hSent : ∀ key, h.apiKey = some key → isHeaderText key = true
  · have hAnswers : h.Answers transport s request response ↔
        (transport { request with authorization := h.apiKey.map ("Bearer " ++ ·) } s).1 =
          some response :=
      ⟨fun hAnswers => hAnswers.answer, fun hAnswer => ⟨hSent, hAnswer⟩⟩
    rw [hAnswers, send, if_neg (fun hBad => hKey.1 hBad hSent)]
    dsimp only
    rcases transport { request with authorization := h.apiKey.map ("Bearer " ++ ·) } s with
      ⟨_ | found, next⟩ <;> simp
  · rw [send, if_pos (hKey.2 hSent)]
    constructor
    · rintro ⟨⟩
    · exact fun hAnswers => absurd hAnswers.key hSent

/-- A request tells something if the server answers and its response has that meaning. -/
theorem ask_eq_iff {α : Type} {meaning : Response → Except RegistryError α} {value : α} :
    (h.ask transport request meaning s).1 = .ok value ↔
      ∃ response, h.Answers transport s request response ∧ meaning response = .ok value := by
  simp only [← send_eq_ok_iff]
  show (h.send transport request s).1.bind meaning = .ok value ↔ _
  cases (h.send transport request s).1 with
  | error e => simp [Except.bind]
  | ok response => simp [Except.bind]

theorem ask_of_answers {α : Type} {meaning : Response → Except RegistryError α}
    {response : Response} (hAnswers : h.Answers transport s request response) :
    (h.ask transport request meaning s).1 = meaning response := by
  show (h.send transport request s).1.bind meaning = _
  rw [send_eq_ok_iff.2 hAnswers]
  rfl

/-- The response is one of success. -/
def Succeeds (response : Response) : Prop :=
  200 ≤ response.status ∧ response.status ≤ 299

theorem isSuccess_iff {response : Response} : response.isSuccess = true ↔ Succeeds response := by
  rw [Response.isSuccess, Bool.and_eq_true, decide_eq_true_eq, decide_eq_true_eq, Succeeds,
    Nat.lt_succ_iff]

theorem found_eq_false_iff {response : Response} :
    found response = .ok false ↔ response.status = 404 := by
  unfold found
  split
  · simp [*]
  · split <;> simp [*]

theorem found_eq_true_iff {response : Response} :
    found response = .ok true ↔ Succeeds response := by
  rw [← isSuccess_iff]
  unfold found
  split
  · rename_i hMissing
    simp [Response.isSuccess, hMissing]
  · split <;> simp [*]

theorem found_of_refused {response : Response} (hFound : response.status ≠ 404)
    (hRefused : ¬ Succeeds response) :
    found response = .error (.status response.status response.body) := by
  rw [← isSuccess_iff] at hRefused
  rw [found, if_neg hFound, if_neg hRefused]
  rfl

theorem done_eq_ok_iff {response : Response} : done response = .ok () ↔ Succeeds response := by
  rw [← isSuccess_iff]
  unfold done
  split <;> simp [*]

end Http

/--
**Decks are brought to a registry once.** Whatever a registry does, after any steps of a syncer

* the cache holds the decks that were created or updated since it was last cleared, and the
  registry took each of those once;
* a deck is `cached`, without a question to the registry, exactly if the cache holds it;
* of any other deck the registry is asked whether it has it, and then for one change at most: it is
  created or updated (`Syncs`);
* what fails leaves the cache as it was.

A registry over HTTP does not have a deck where the server answers 404 and has it where the server
answers with a status of success, any other status is an error, and a deck is created or updated if
the server answers with a status of success.
-/
theorem sync_run {τ : Type} (registry : Registry σ) (start : σ) :
    (∀ steps, let s := Syncer.run registry start steps
      (∀ id, id ∈ s.cache.ids ↔ id ∈ broughtIn s.turns) ∧
      pushedIn s.turns = broughtIn s.turns ∧ (pushedIn s.turns).Nodup ∧
      ∀ upload, let synced := registry.sync upload s.cache s.state
        let asked := registry.contacts upload s.cache s.state
        Syncs upload s.cache asked synced.1 synced.2.1 ∧
        (synced.1 = .ok .cached ↔ upload.deckId ∈ s.cache.ids) ∧
        (asked = [] ↔ upload.deckId ∈ s.cache.ids) ∧
        (∀ e, synced.1 = .error e → synced.2.1 = s.cache)) ∧
    ∀ (h : Http) (transport : Transport τ) (t : τ),
      (∀ id, let asked : Request := { method := .get, url := h.deckUrl id }
        let answer := ((h.registry transport).has id t).1
        (answer = .ok false ↔
          ∃ response, h.Answers transport t asked response ∧ response.status = 404) ∧
        (answer = .ok true ↔
          ∃ response, h.Answers transport t asked response ∧ Http.Succeeds response) ∧
        ∀ response, h.Answers transport t asked response → response.status ≠ 404 →
          ¬ Http.Succeeds response → answer = .error (.status response.status response.body)) ∧
      ∀ upload,
        (((h.registry transport).create upload t).1 = .ok () ↔
          ∃ response, h.Answers transport t
            { method := .post, url := h.decksUrl, body := some upload } response ∧
            Http.Succeeds response) ∧
        (((h.registry transport).update upload t).1 = .ok () ↔
          ∃ response, h.Answers transport t
            { method := .put, url := h.deckUrl upload.deckId, body := some upload } response ∧
            Http.Succeeds response) := by
  refine ⟨fun steps => ?_, fun h transport t => ⟨fun id => ⟨?_, ?_, ?_⟩, fun upload => ⟨?_, ?_⟩⟩⟩
  · intro s
    have hSound : s.Sound := Syncer.sound_run registry start steps
    have hNodup : (pushedIn s.turns).Nodup := by
      rw [hSound.pushed, ← hSound.cached, List.nodup_reverse]
      exact hSound.nodup
    refine ⟨fun id => ?_, hSound.pushed, hNodup, fun upload => ?_⟩
    · rw [← hSound.cached, List.mem_reverse]
    · have hSyncs := syncs_sync registry upload s.cache s.state
      exact ⟨hSyncs, hSyncs.cached_iff, hSyncs.asked_eq_nil_iff, fun e => hSyncs.eq_of_error⟩
  · exact Http.ask_eq_iff.trans (by simp only [Http.found_eq_false_iff])
  · exact Http.ask_eq_iff.trans (by simp only [Http.found_eq_true_iff])
  · intro response hAnswers hFound hRefused
    exact (Http.ask_of_answers hAnswers).trans (Http.found_of_refused hFound hRefused)
  · exact Http.ask_eq_iff.trans (by simp only [Http.done_eq_ok_iff])
  · exact Http.ask_eq_iff.trans (by simp only [Http.done_eq_ok_iff])

end Deckwright.Registry
